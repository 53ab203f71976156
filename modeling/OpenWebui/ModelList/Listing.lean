import OpenWebui.Base.Dict
import OpenWebui.Base.Json

/-! The list of models shown to users: copies of the base models, the evaluation
arena's models, the workspace's overrides applied to them in place and its presets
appended. Dictionaries are known by their position, so that a reference and the
value it leads to stay apart. -/

namespace OpenWebui

namespace ModelList

/-- The `info` dictionary of a listed model; of a workspace model it is the dumped
row. `metadata` is its `meta`. -/
structure Info where
  user_id : Option String
  metadata : Option Fields
  rest : Fields
  deriving DecidableEq

structure BaseModel where
  ollama : Bool
  id : String
  name : String
  arena : Bool
  info : Option Info
  rest : Fields
  deriving DecidableEq

structure ArenaModel where
  id : String
  name : String
  metadata : Fields
  deriving DecidableEq

structure ArenaSettings where
  enable : Bool
  models : List ArenaModel

/-- A row of the workspace: an override of the base model of its id when it has no
base model of its own, else a preset. -/
structure ModelRow where
  id : String
  user_id : String
  base_model_id : Option String
  name : String
  is_active : Bool
  metadata : Fields
  chat_variables_schema : Option Json
  created_at : Int
  rest : Fields
  deriving DecidableEq

structure ModelTable where
  rows : List ModelRow
  unique : (rows.map ModelRow.id).Nodup

/-- A dictionary of the list being built. `info_shared` says that its `info` is
still an object that outlives the call: the cached model's, or the constant's. -/
structure ModelDict where
  id : String
  name : String
  owned_by : String
  arena : Bool
  info : Option Info
  info_shared : Bool
  action_ids : Option (List Json)
  filter_ids : Option (List Json)
  rest : Fields
  deriving DecidableEq

def Info.fields (info : Info) : Fields :=
  (info.user_id.map (fun id => ("user_id", Json.str id))).toList ++
    (info.metadata.map (fun fields => ("meta", Json.obj fields))).toList ++ info.rest

def ModelDict.fields (model : ModelDict) : Fields :=
  (model.info.map (fun info => ("info", Json.obj info.fields))).toList ++
    (model.action_ids.map (fun ids => ("action_ids", Json.arr ids))).toList ++
    (model.filter_ids.map (fun ids => ("filter_ids", Json.arr ids))).toList ++ model.rest

/-- `first == second` on two of the dictionaries. The fields are compared both ways,
since a list of them could repeat a key and a dictionary cannot. -/
def ModelDict.equal (first second : ModelDict) : Bool :=
  decide (first.id = second.id) && decide (first.name = second.name) &&
    decide (first.owned_by = second.owned_by) && decide (first.arena = second.arena) &&
    (Json.equal (.obj first.fields) (.obj second.fields) &&
      Json.equal (.obj second.fields) (.obj first.fields))

/-- `model.copy()`. -/
def BaseModel.copy (model : BaseModel) : ModelDict where
  id := model.id
  name := model.name
  owned_by := if model.ollama then "ollama" else "openai"
  arena := model.arena
  info := model.info
  info_shared := true
  action_ids := none
  filter_ids := none
  rest := model.rest

/-- `id.split(':')[0]`: a name without its tag. -/
def base_name (id : String) : String :=
  String.ofList (id.toList.takeWhile (fun char => decide (char ≠ ':')))

def ArenaModel.dict (model : ArenaModel) (shared : Bool) : ModelDict where
  id := model.id
  name := model.name
  owned_by := "arena"
  arena := true
  info := some { user_id := none, metadata := some model.metadata, rest := [] }
  info_shared := shared
  action_ids := none
  filter_ids := none
  rest := [("object", .str "model"), ("created", .num 0)]

/-- `DEFAULT_ARENA_MODEL`, whose `meta` earlier calls may have filled. -/
def default_arena_model (metadata : Fields) : ArenaModel where
  id := "arena-model"
  name := "Arena Model"
  metadata := metadata

def arena_models (settings : ArenaSettings) (constant : Fields) : List ModelDict :=
  if settings.enable then
    if settings.models.isEmpty then [(default_arena_model constant).dict true]
    else settings.models.map (fun model => model.dict false)
  else []

/-- The row as `model_dump` gives it, its parameters dropped. -/
def ModelRow.info (row : ModelRow) : Info where
  user_id := some row.user_id
  metadata := some <| match row.chat_variables_schema with
    | none => row.metadata
    | some schema => Assoc.set row.metadata "chat_variables_schema" schema
  rest := [("id", .str row.id),
    ("base_model_id", (row.base_model_id.map Json.str).getD .null),
    ("name", .str row.name), ("is_active", .bool row.is_active),
    ("created_at", .num row.created_at)] ++ row.rest

/-- `ids.extend(meta.get(key, []))`, where plugins are enabled. -/
def function_ids (plugins : Bool) (row : ModelRow) (key : String) : Except PyError (List Json) :=
  if plugins then
    match row.metadata.lookup key with
    | none => .ok []
    | some ids => ids.iterate
  else .ok []

def base_model_lookup (models : List ModelDict) : Dict String Nat :=
  models.zipIdx.foldl (fun lookup entry =>
    let lookup :=
      if entry.1.owned_by = "ollama" ∧ (lookup.get? (base_name entry.1.id)).isNone then
        lookup.set (base_name entry.1.id) entry.2
      else lookup
    lookup.set entry.1.id entry.2) Dict.empty

/-- The dictionaries made so far and the list of references to those shown. -/
structure Listing where
  objects : List ModelDict
  models : List Nat
  deriving DecidableEq

/-- `models.remove(model)`: the first entry that is the model or equals it. -/
def Listing.remove (listing : Listing) (model : Nat) : Except PyError Listing :=
  let found := fun entry => decide (entry = model) ||
    (match listing.objects[entry]?, listing.objects[model]? with
      | some first, some second => first.equal second
      | _, _ => false)
  if listing.models.any found then
    .ok { listing with models := listing.models.eraseP found }
  else .error .valueError

def ModelRow.override (row : ModelRow) (action_ids filter_ids : List Json) (model : ModelDict) :
    ModelDict :=
  { model with
    name := row.name
    info := some row.info
    info_shared := false
    action_ids := some action_ids
    filter_ids := some filter_ids }

def ModelRow.preset (row : ModelRow) (base : Option ModelDict) (action_ids filter_ids : List Json) :
    ModelDict where
  id := row.id
  name := row.name
  owned_by := (base.map (fun model => model.owned_by)).getD "openai"
  arena := false
  info := some row.info
  info_shared := false
  action_ids := some action_ids
  filter_ids := some filter_ids
  rest :=
    let field := fun key => (base.bind (fun model => model.rest.lookup key)).getD .null
    [("object", .str "model"), ("created", .num row.created_at),
      ("connection_type", field "connection_type"), ("preset", .bool true)] ++
    (if field "pipe" = .null then [] else [("pipe", field "pipe")]) ++
    (if (field "provider").truthy then [("provider", field "provider")] else []) ++
    (if field "loaded" = .null then [] else [("loaded", field "loaded")])

def apply_row (plugins : Bool) (lookup : Dict String Nat) (existing_ids : List String)
    (listing : Listing) (row : ModelRow) : Except PyError Listing :=
  match row.base_model_id with
  | none =>
    match lookup.get? row.id with
    | none => .ok listing
    | some model =>
      if row.is_active then do
        let action_ids ← function_ids plugins row "actionIds"
        let filter_ids ← function_ids plugins row "filterIds"
        .ok { listing with
          objects := listing.objects.modify model (row.override action_ids filter_ids) }
      else listing.remove model
  | some base_model_id =>
    if row.is_active = false ∨ row.id ∈ existing_ids then .ok listing
    else do
      let base := ((lookup.get? base_model_id).or (lookup.get? (base_name base_model_id))).bind
        (fun model => listing.objects[model]?)
      let action_ids ← function_ids plugins row "actionIds"
      let filter_ids ← function_ids plugins row "filterIds"
      .ok { objects := listing.objects ++ [row.preset base action_ids filter_ids]
            models := listing.models ++ [listing.objects.length] }

def starting_models (base : List BaseModel) (settings : ArenaSettings) (constant : Fields) :
    List ModelDict :=
  base.map BaseModel.copy ++ arena_models settings constant

def list_models (plugins : Bool) (base : List BaseModel) (settings : ArenaSettings)
    (constant : Fields) (rows : List ModelRow) : Except PyError Listing :=
  if base.isEmpty then .ok ⟨[], []⟩
  else
    let models := starting_models base settings constant
    rows.foldlM (apply_row plugins (base_model_lookup models) (models.map ModelDict.id))
      ⟨models, List.range models.length⟩

/-- The metadata defaults on one `meta`: capabilities are merged under the model's
own, any other key is set where it has no value. -/
def fill_metadata (defaults : Fields) (metadata : Fields) : Fields :=
  defaults.foldl (fun metadata field =>
    if field.1 = "capabilities" then
      Assoc.set metadata "capabilities" (.obj (Assoc.merge (field.2.obj?.getD [])
        ((getField metadata "capabilities").obj?.getD [])))
    else if getField metadata field.1 = .null then Assoc.set metadata field.1 field.2
    else metadata) metadata

def ModelDict.with_defaults (defaults : Fields) (model : ModelDict) : ModelDict :=
  match model.info with
  | none =>
    { model with
      info := some { user_id := none, metadata := some defaults, rest := [] }
      info_shared := false }
  | some info =>
    { model with
      info := some { info with metadata := some (fill_metadata defaults (info.metadata.getD [])) } }

/-- `models.default_metadata` applied to every model of the list. -/
def Listing.with_defaults (defaults : Fields) (listing : Listing) : Listing :=
  if defaults.isEmpty then listing
  else { listing with
    objects := listing.objects.zipIdx.map (fun entry =>
      if entry.2 ∈ listing.models then entry.1.with_defaults defaults else entry.1) }

theorem getElem?_with_defaults (defaults : Fields) (listing : Listing) (place : Nat) :
    (listing.with_defaults defaults).objects[place]? = (listing.objects[place]?).map (fun model =>
      if defaults.isEmpty = false ∧ place ∈ listing.models then model.with_defaults defaults
      else model) := by
  unfold Listing.with_defaults
  split
  · rename_i empty
    simp [empty]
  · rename_i filled
    simp [filled, List.getElem?_zipIdx, Function.comp_def]

def get_all_models (plugins : Bool) (base : List BaseModel) (settings : ArenaSettings)
    (constant : Fields) (defaults : Fields) (rows : List ModelRow) : Except PyError Listing :=
  (list_models plugins base settings constant rows).map (Listing.with_defaults defaults)

def Listing.id_at (listing : Listing) (place : Nat) : Option String :=
  (listing.objects[place]?).map ModelDict.id

def Listing.name_at (listing : Listing) (place : Nat) : Option String :=
  (listing.objects[place]?).map ModelDict.name

def Listing.returned (listing : Listing) : List ModelDict :=
  listing.models.filterMap (fun model => listing.objects[model]?)

end ModelList

end OpenWebui
