import Mathlib.Data.List.Nodup
import Mathlib.Logic.Relation
import OpenWebui.AccessGrants.Deciders
import OpenWebui.Base.Sequence
import OpenWebui.ModelList.Listing

/-! Which listed models a user is shown, decided from the merged dictionaries, and which a user may
use, decided from the rows of the workspace. -/

namespace OpenWebui

namespace ModelList

open AccessGrants (Database User Allowed groupIds get_groups_by_member_id)

/-- `BYPASS_ADMIN_ACCESS_CONTROL` and `BYPASS_MODEL_ACCESS_CONTROL`. -/
structure Bypass where
  admin : Bool
  model : Bool

def group_ids (db : Database) (user : User) : List String :=
  (get_groups_by_member_id db user.id).map (fun group => group.id)

/-- `model.get('info', {}).get('meta', {}).get('access_grants', [])`; a missing key and
`None` both let nobody in. -/
def ModelDict.access_grants (model : ModelDict) : Json :=
  ((model.info.bind Info.metadata).map (fun fields => getField fields "access_grants")).getD .null

/-- `has_access` on the grants an arena model carries. -/
def arena_access (db : Database) (user : User) (model : ModelDict) : Except PyError Bool :=
  if model.access_grants.truthy then do
    let grants ← model.access_grants.iterate
    AccessGrants.inMemoryAccess db user.id "read" grants (some (group_ids db user))
  else .ok false

def Info.truthy (info : Info) : Bool := !info.fields.isEmpty

/-- The `info` of each id, of the models outside the arena that have one. -/
def model_infos (models : List ModelDict) : Dict String Info :=
  models.foldl (fun infos model =>
    if model.arena then infos
    else
      match model.info with
      | some info => if info.truthy then infos.set model.id info else infos
      | none => infos) Dict.empty

/-- The test `get_filtered_models` makes of one model. -/
def keeps (db : Database) (bypass : Bypass) (user : User) (models : List ModelDict)
    (model : ModelDict) : Except PyError Bool :=
  if model.arena then arena_access db user model
  else
    match (model_infos models).get? model.id with
    | some info =>
      .ok ((decide (user.role = "admin") && bypass.admin) ||
        decide (info.user_id = some user.id) ||
        decide (model.id ∈ AccessGrants.get_accessible_resource_ids db user.id "model"
          (model_infos models).keys "read" (some (group_ids db user))))
    | none => .ok (decide (user.role = "admin"))

def filters (bypass : Bypass) (user : User) : Bool :=
  (decide (user.role = "user") || (decide (user.role = "admin") && !bypass.admin)) && !bypass.model

def get_filtered_models (db : Database) (bypass : Bypass) (user : User)
    (models : List ModelDict) : Except PyError (List ModelDict) :=
  if filters bypass user then
    models.foldlM (Guarded.turn (keeps db bypass user models) (fun kept model => kept ++ [model])) []
  else .ok models

def get_model_by_id (rows : List ModelRow) (id : String) : Option ModelRow :=
  rows.find? (fun row => decide (row.id = id))

def reads (db : Database) (user : User) (row : ModelRow) : Bool :=
  decide (user.id = row.user_id) ||
    AccessGrants.has_access db user.id "model" row.id "read" (some (group_ids db user))

/-- The hops along `base_model_id`; every hop finds a row not seen before. -/
def base_hops (db : Database) (user : User) (rows : List ModelRow) :
    Nat → List String → Option String → Bool
  | 0, _, _ => false
  | _ + 1, _, none => true
  | fuel + 1, seen, some base_model_id =>
    if base_model_id = "" ∨ base_model_id ∈ seen then true
    else
      match get_model_by_id rows base_model_id with
      | none => decide (user.role = "admin")
      | some row =>
        if reads db user row then base_hops db user rows fuel (base_model_id :: seen) row.base_model_id
        else false

def has_base_model_access (db : Database) (user : User) (rows : List ModelRow) (row : ModelRow) :
    Bool :=
  base_hops db user rows (rows.length + 1) [row.id] row.base_model_id

/-- `check_model_access` on a listed model; `false` is its `Model not found`. -/
def check_model_access (db : Database) (rows : List ModelRow) (user : User) (model : ModelDict) :
    Except PyError Bool :=
  if model.arena then arena_access db user model
  else
    match get_model_by_id rows model.id with
    | none => .ok false
    | some row => .ok (reads db user row && has_base_model_access db user rows row)

/-- `access_control.check_model_access` on a row, as the providers' routes call it. -/
def check_route_access (db : Database) (rows : List ModelRow) (user : User)
    (model_info : Option ModelRow) (bypass_filter : Bool) : Bool :=
  if bypass_filter then true
  else
    match model_info with
    | some row =>
      if user.role ≠ "admin" then reads db user row && has_base_model_access db user rows row
      else true
    | none => decide (user.role = "admin")

variable {db : Database} {user : User} {rows : List ModelRow}

theorem get_model_by_id_some {id : String} {row : ModelRow}
    (found : get_model_by_id rows id = some row) : row ∈ rows ∧ row.id = id :=
  ⟨List.mem_of_find?_eq_some found, by simpa using List.find?_some found⟩

/-- The row rests on another row. -/
def RestsOn (rows : List ModelRow) (row base : ModelRow) : Prop :=
  base ∈ rows ∧ row.base_model_id = some base.id ∧ base.id ≠ ""

/-- Every row the given one rests on, itself included, may be read, and none of them
rests on a model without a row. -/
def Usable (db : Database) (user : User) (rows : List ModelRow) (row : ModelRow) : Prop :=
  ∀ later, Relation.ReflTransGen (RestsOn rows) row later →
    reads db user later = true ∧ ∀ id, later.base_model_id = some id → id ≠ "" →
      ∃ base ∈ rows, base.id = id

def unseen (rows : List ModelRow) (seen : List String) : List ModelRow :=
  rows.filter (fun row => decide (row.id ∉ seen))

theorem unseen_cons_lt {seen : List String} {row : ModelRow} (member : row ∈ rows)
    (fresh : row.id ∉ seen) : (unseen rows (row.id :: seen)).length < (unseen rows seen).length := by
  have shrinks : unseen rows (row.id :: seen) =
      (unseen rows seen).filter (fun other => decide (other.id ≠ row.id)) := by
    unfold unseen
    rw [List.filter_filter]
    refine List.filter_congr (fun other _ => ?_)
    simp
  have inside : row ∈ unseen rows seen := List.mem_filter.mpr ⟨member, decide_eq_true fresh⟩
  rw [shrinks]
  exact List.length_filter_lt_length_iff_exists.mpr ⟨row, inside, by simp⟩

theorem base_hops_of_usable {fuel : Nat} {seen : List String} {row : ModelRow}
    (usable : Usable db user rows row) (enough : (unseen rows seen).length < fuel) :
    base_hops db user rows fuel seen row.base_model_id = true := by
  induction fuel generalizing seen row with
  | zero => exact absurd enough (Nat.not_lt_zero _)
  | succ fuel ih =>
    cases base : row.base_model_id with
    | none => rfl
    | some id =>
      rw [base_hops]
      split
      · rfl
      · rename_i hop
        obtain ⟨named, fresh⟩ := not_or.mp hop
        obtain ⟨_, registered⟩ := usable row .refl
        obtain ⟨some_base, member, same⟩ := registered id base named
        cases found : get_model_by_id rows id with
        | none =>
          have missing := List.find?_eq_none.mp found some_base member
          simp [same] at missing
        | some next =>
          obtain ⟨inside, rfl⟩ := get_model_by_id_some found
          have step : RestsOn rows row next := ⟨inside, base, named⟩
          have later : Usable db user rows next := fun other path => usable other (path.head step)
          simp only [(later next .refl).1, if_true]
          refine ih later ?_
          exact Nat.lt_of_lt_of_le (unseen_cons_lt inside fresh) (Nat.le_of_lt_succ enough)

/-- The rows seen on the way, all of which may be read, and each of which rests on
nothing or on one seen as well; the last one still has to be looked at. -/
structure Seen (db : Database) (user : User) (rows : List ModelRow) (seen : List String)
    (last : ModelRow) : Prop where
  member : last ∈ rows
  ended : last.id ∈ seen
  reads : ∀ row ∈ rows, row.id ∈ seen → reads db user row = true
  closed : ∀ row ∈ rows, row.id ∈ seen → row ≠ last → ∀ id, row.base_model_id = some id →
    id ≠ "" → id ∈ seen
  registered : ∀ id ∈ seen, ∃ row ∈ rows, row.id = id

theorem Seen.usable {seen : List String} {last first : ModelRow} (walk : Seen db user rows seen last)
    (stop : ∀ id, last.base_model_id = some id → id ≠ "" → id ∈ seen) (member : first ∈ rows)
    (inside : first.id ∈ seen) : Usable db user rows first := by
  have closed : ∀ row ∈ rows, row.id ∈ seen → ∀ id, row.base_model_id = some id → id ≠ "" →
      id ∈ seen := by
    intro row present seen_row id base named
    by_cases same : row = last
    · subst same
      exact stop id base named
    · exact walk.closed row present seen_row same id base named
  intro later path
  have reached : later ∈ rows ∧ later.id ∈ seen := by
    induction path with
    | refl => exact ⟨member, inside⟩
    | tail _ step ih => exact ⟨step.1, closed _ ih.1 ih.2 _ step.2.1 step.2.2⟩
  refine ⟨walk.reads later reached.1 reached.2, fun id base named => ?_⟩
  exact walk.registered id (closed later reached.1 reached.2 id base named)

theorem usable_of_base_hops (unique : (rows.map ModelRow.id).Nodup) (role : user.role ≠ "admin")
    {first : ModelRow} (member : first ∈ rows) {fuel : Nat} {seen : List String} {last : ModelRow}
    (walk : Seen db user rows seen last) (inside : first.id ∈ seen)
    (passes : base_hops db user rows fuel seen last.base_model_id = true) :
    Usable db user rows first := by
  induction fuel generalizing seen last with
  | zero => cases passes
  | succ fuel ih =>
    cases base : last.base_model_id with
    | none => exact walk.usable (by simp [base]) member inside
    | some id =>
      rw [base, base_hops] at passes
      split at passes
      · rename_i stops
        refine walk.usable (fun other held named => ?_) member inside
        obtain rfl := Option.some.inj (base.symm.trans held)
        exact stops.resolve_left named
      · rename_i hop
        obtain ⟨named, fresh⟩ := not_or.mp hop
        cases found : get_model_by_id rows id with
        | none => simp [found, role] at passes
        | some next =>
          obtain ⟨present, rfl⟩ := get_model_by_id_some found
          simp only [found] at passes
          split at passes
          · rename_i readable
            refine ih ⟨present, List.mem_cons_self, ?_, ?_, ?_⟩
              (List.mem_cons_of_mem _ inside) passes
            · intro row row_member seen_row
              rcases List.mem_cons.mp seen_row with same | before
              · rw [List.inj_on_of_nodup_map unique row_member present same]
                exact readable
              · exact walk.reads row row_member before
            · intro row row_member seen_row different other held other_named
              rcases List.mem_cons.mp seen_row with same | before
              · exact absurd (List.inj_on_of_nodup_map unique row_member present same) different
              · by_cases was_last : row = last
                · subst was_last
                  obtain rfl := Option.some.inj (base.symm.trans held)
                  exact List.mem_cons_self
                · exact List.mem_cons_of_mem _
                    (walk.closed row row_member before was_last other held other_named)
            · intro other listed
              rcases List.mem_cons.mp listed with rfl | before
              · exact ⟨next, present, rfl⟩
              · exact walk.registered other before
          · cases passes

theorem check_row_iff (unique : (rows.map ModelRow.id).Nodup) (role : user.role ≠ "admin")
    {row : ModelRow} (member : row ∈ rows) :
    (reads db user row && has_base_model_access db user rows row) = true ↔
      Usable db user rows row := by
  rw [Bool.and_eq_true]
  constructor
  · rintro ⟨readable, passes⟩
    refine usable_of_base_hops unique role member
      ⟨member, List.mem_singleton_self _, ?_, ?_, ?_⟩ (List.mem_singleton_self _) passes
    · intro other present same
      rw [List.inj_on_of_nodup_map unique present member (List.mem_singleton.mp same)]
      exact readable
    · intro other present same different
      exact absurd (List.inj_on_of_nodup_map unique present member (List.mem_singleton.mp same))
        different
    · intro id listed
      exact ⟨row, member, (List.mem_singleton.mp listed).symm⟩
  · intro usable
    refine ⟨(usable row .refl).1, base_hops_of_usable usable ?_⟩
    exact Nat.lt_succ_of_le (List.length_filter_le _ _)

/-- The id has a row, and it is usable. -/
def UsableId (db : Database) (user : User) (rows : List ModelRow) (id : String) : Prop :=
  ∃ row ∈ rows, row.id = id ∧ Usable db user rows row

theorem check_model_access_iff (unique : (rows.map ModelRow.id).Nodup) (role : user.role ≠ "admin")
    {model : ModelDict} (kind : model.arena = false) :
    check_model_access db rows user model = .ok true ↔ UsableId db user rows model.id := by
  rw [check_model_access, kind]
  simp only [Bool.false_eq_true, if_false]
  cases found : get_model_by_id rows model.id with
  | none =>
    refine ⟨fun passes => (by cases passes), ?_⟩
    rintro ⟨row, member, same, _⟩
    have missing := List.find?_eq_none.mp found row member
    simp [same] at missing
  | some row =>
    obtain ⟨member, same⟩ := get_model_by_id_some found
    simp only [Except.ok.injEq]
    rw [check_row_iff unique role member]
    constructor
    · intro usable
      exact ⟨row, member, same, usable⟩
    · rintro ⟨other, present, other_same, usable⟩
      rwa [List.inj_on_of_nodup_map unique member present (same.trans other_same.symm)]

theorem check_route_access_iff (role : user.role ≠ "admin") {model : ModelDict}
    (kind : model.arena = false) :
    check_route_access db rows user (get_model_by_id rows model.id) false = true ↔
      check_model_access db rows user model = .ok true := by
  unfold check_model_access check_route_access
  rw [kind]
  cases get_model_by_id rows model.id with
  | none => simp [role]
  | some row => simp [role]

end ModelList

end OpenWebui

namespace OpenWebui

namespace ModelList

open AccessGrants (Database User Allowed groupIds)

variable {db : Database} {bypass : Bypass} {user : User} {models : List ModelDict}

/-- A read grant on the model's id admits the user. -/
def Granted (db : Database) (user : User) (id : String) : Prop :=
  Allowed db user.id (group_ids db user) "model" id "read"

def plain (id : String) (model : ModelDict) : Bool := !model.arena && decide (model.id = id)

/-- It carries an `info` that counts as one. -/
def ModelDict.has_info (model : ModelDict) : Bool := model.info.any Info.truthy

theorem get?_model_infos (models : List ModelDict) (id : String) :
    (model_infos models).get? id =
      ((models.filter (fun model => plain id model && model.has_info)).getLast?).bind
        ModelDict.info := by
  induction models using List.reverseRecOn with
  | nil => rfl
  | append_singleton models model ih =>
    rw [model_infos, List.foldl_append, List.foldl_cons, List.foldl_nil, ← model_infos,
      List.filter_append, List.filter_singleton]
    by_cases arena : model.arena = true
    · simp [arena, plain, ih]
    · cases info : model.info with
      | none => simp [arena, plain, ModelDict.has_info, info, ih]
      | some info' =>
        by_cases truthy : info'.truthy = true
        · by_cases same : model.id = id
          · simp [arena, plain, ModelDict.has_info, info, truthy, same]
          · simp [arena, plain, ModelDict.has_info, info, truthy, same, ih]
        · simp [arena, plain, ModelDict.has_info, info, truthy, ih]

theorem mem_accessible_iff {id : String} (present : id ∈ (model_infos models).keys) :
    id ∈ AccessGrants.get_accessible_resource_ids db user.id "model" (model_infos models).keys
        "read" (some (group_ids db user)) ↔ Granted db user id := by
  rw [AccessGrants.mem_get_accessible_resource_ids_iff]
  exact and_iff_right present

/-- A model with an `info` is for its owner and those with a grant, one without for
admins. -/
def ListedTo (db : Database) (user : User) (models : List ModelDict) (id : String) : Prop :=
  match (model_infos models).get? id with
  | some info => info.user_id = some user.id ∨ Granted db user id
  | none => user.role = "admin"

theorem keeps_plain (filtered : filters bypass user = true) {model : ModelDict}
    (kind : model.arena = false) :
    keeps db bypass user models model = .ok true ↔ ListedTo db user models model.id := by
  have no_bypass : (decide (user.role = "admin") && bypass.admin) = false := by
    simp only [filters, Bool.and_eq_true, Bool.or_eq_true, decide_eq_true_eq,
      Bool.not_eq_true'] at filtered
    rcases filtered.1 with role | ⟨_, off⟩
    · simp [role]
    · simp [off]
  rw [keeps, kind, ListedTo]
  simp only [Bool.false_eq_true, if_false]
  cases found : (model_infos models).get? model.id with
  | none => simp
  | some info =>
    have present := Dict.mem_keys_of_get? found
    simp only [no_bypass, Bool.false_or, Except.ok.injEq, Bool.or_eq_true, decide_eq_true_eq,
      mem_accessible_iff present]

theorem keeps_plain_ok {model : ModelDict} (kind : model.arena = false) :
    ∃ kept, keeps db bypass user models model = .ok kept := by
  rw [keeps, kind]
  simp only [Bool.false_eq_true, if_false]
  split <;> exact ⟨_, rfl⟩

theorem get_filtered_models_mem (filtered : filters bypass user = true) {kept : List ModelDict}
    (done : get_filtered_models db bypass user models = .ok kept) (model : ModelDict) :
    model ∈ kept ↔ model ∈ models ∧ keeps db bypass user models model = .ok true := by
  rw [get_filtered_models, if_pos filtered] at done
  have answered := Guarded.answered_of_foldlM done
  rw [Guarded.foldlM_turn _ answered] at done
  obtain rfl := Except.ok.inj done
  have collects : ∀ items start : List ModelDict,
      items.foldl (fun kept model => kept ++ [model]) start = start ++ items := by
    intro items
    induction items with
    | nil => simp
    | cons item rest ih => intro start; simp [ih]
  rw [collects, List.nil_append, List.mem_filter]
  refine and_congr_right (fun member => ?_)
  obtain ⟨passes, answer⟩ := answered model member
  rw [Guarded.chosen, answer]
  cases passes <;> simp [Except.toOption]

theorem get_filtered_models_ok (db : Database) (models : List ModelDict)
    (filtered : filters bypass user = true)
    (answered : ∀ model ∈ models, ∃ kept, keeps db bypass user models model = .ok kept) :
    ∃ kept, get_filtered_models db bypass user models = .ok kept := by
  rw [get_filtered_models, if_pos filtered, Guarded.foldlM_turn _ answered]
  exact ⟨_, rfl⟩

theorem answered_of_filtered (filtered : filters bypass user = true) {kept : List ModelDict}
    (done : get_filtered_models db bypass user models = .ok kept) :
    ∀ model ∈ models, ∃ passes, keeps db bypass user models model = .ok passes := by
  rw [get_filtered_models, if_pos filtered] at done
  exact Guarded.answered_of_foldlM done

section Defaults

variable {defaults : Fields}

@[simp] theorem with_defaults_id (defaults : Fields) (model : ModelDict) :
    (model.with_defaults defaults).id = model.id := by
  unfold ModelDict.with_defaults
  split <;> rfl

@[simp] theorem with_defaults_arena (defaults : Fields) (model : ModelDict) :
    (model.with_defaults defaults).arena = model.arena := by
  unfold ModelDict.with_defaults
  split <;> rfl

theorem with_defaults_info (defaults : Fields) (model : ModelDict) :
    ∃ info, (model.with_defaults defaults).info = some info ∧ info.truthy = true ∧
      info.user_id = model.info.bind Info.user_id := by
  unfold ModelDict.with_defaults
  split
  · rename_i missing
    exact ⟨_, rfl, by simp [Info.truthy, Info.fields], by rw [missing]; rfl⟩
  · rename_i info present
    exact ⟨_, rfl, by simp [Info.truthy, Info.fields], by rw [present]; rfl⟩

def last_owner (models : List ModelDict) (id : String) : Option String :=
  ((models.filter (plain id)).getLast?).bind (fun model => model.info.bind Info.user_id)

theorem model_infos_with_defaults (defaults : Fields) {model : ModelDict} (member : model ∈ models)
    (kind : model.arena = false) :
    ∃ info, (model_infos (models.map (ModelDict.with_defaults defaults))).get? model.id =
      some info ∧ info.user_id = last_owner models model.id := by
  have every : (models.map (ModelDict.with_defaults defaults)).filter
      (fun other => plain model.id other && other.has_info) =
        (models.filter (plain model.id)).map (ModelDict.with_defaults defaults) := by
    rw [List.filter_map]
    congr 1
    refine List.filter_congr (fun other _ => ?_)
    obtain ⟨info, has, truthy, _⟩ := with_defaults_info defaults other
    simp [plain, ModelDict.has_info, has, truthy]
  have inside : model ∈ models.filter (plain model.id) :=
    List.mem_filter.mpr ⟨member, by simp [plain, kind]⟩
  obtain ⟨last, final⟩ : ∃ last, (models.filter (plain model.id)).getLast? = some last :=
    ⟨_, List.getLast?_eq_some_getLast (List.ne_nil_of_mem inside)⟩
  obtain ⟨info, has, _, owner⟩ := with_defaults_info defaults last
  refine ⟨info, ?_, ?_⟩
  · rw [get?_model_infos, every, List.getLast?_map, final]
    exact has
  · rw [owner, last_owner, final]
    rfl

theorem keeps_plain_with_defaults (filtered : filters bypass user = true) {model : ModelDict}
    (member : model ∈ models) (kind : model.arena = false) :
    keeps db bypass user (models.map (ModelDict.with_defaults defaults))
        (model.with_defaults defaults) = .ok true ↔
      last_owner models model.id = some user.id ∨ Granted db user model.id := by
  obtain ⟨info, found, owner⟩ := model_infos_with_defaults defaults member kind
  rw [keeps_plain filtered (by rw [with_defaults_arena, kind]), with_defaults_id, ListedTo, found]
  simp only [owner]

theorem getField_fill_metadata {metadata : Fields} {key : String} (plain_key : key ≠ "capabilities")
    (given : getField metadata key ≠ .null) :
    getField (fill_metadata defaults metadata) key = getField metadata key := by
  unfold fill_metadata
  induction defaults generalizing metadata with
  | nil => rfl
  | cons field rest ih =>
    rw [List.foldl_cons]
    split
    · have same : getField (Assoc.set metadata "capabilities" (.obj (Assoc.merge
          (field.2.obj?.getD []) ((getField metadata "capabilities").obj?.getD [])))) key =
          getField metadata key := by simp [plain_key.symm]
      rw [ih (by rw [same]; exact given), same]
    · split
      · rename_i empty
        have different : field.1 ≠ key := by
          intro same
          rw [same] at empty
          exact given empty
        have same : getField (Assoc.set metadata field.1 field.2) key = getField metadata key := by
          simp [different]
        rw [ih (by rw [same]; exact given), same]
      · exact ih given

theorem access_grants_with_defaults {model : ModelDict} (own : model.access_grants ≠ .null) :
    (model.with_defaults defaults).access_grants = model.access_grants := by
  cases info : model.info with
  | none => simp [ModelDict.access_grants, info] at own
  | some info' =>
    cases metadata : info'.metadata with
    | none => simp [ModelDict.access_grants, info, metadata] at own
    | some fields =>
      have given : getField fields "access_grants" ≠ .null := by
        simpa [ModelDict.access_grants, info, metadata] using own
      simp [ModelDict.access_grants, ModelDict.with_defaults, info, metadata,
        getField_fill_metadata (by decide) given]

end Defaults

end ModelList

end OpenWebui
