import OpenWebui.Base.Dict
import OpenWebui.Base.Text
import OpenWebui.Utils.Routes

/-! The table of memories, the vector collection of a user, and the text and metadata that are
written for a row. -/

namespace OpenWebui.Memories

inductive MemoryType where
  | user
  | context
  deriving DecidableEq

/-- A memory row. The provenance of `meta` is left out. -/
structure Memory where
  user_id : String
  type : MemoryType
  path : Option String
  content : String
  created_at : Int
  updated_at : Int
  deriving DecidableEq

abbrev Rows := Dict String Memory

structure Metadata where
  created_at : Int
  updated_at : Int
  type : MemoryType
  path : Option String
  deriving DecidableEq

/-- An item of a collection. Its vector is that of its text. -/
structure Item where
  text : String
  metadata : Metadata
  deriving DecidableEq

abbrev Collection := Dict String Item

/-- An absent type is `context`. -/
def normalize_memory_type (memory_type : Option MemoryType) : MemoryType :=
  if memory_type = some .user then .user else .context

def clean_memory_content (content : Option String) : Except HTTPException String :=
  let value := String.ofList (Text.strip (content.getD "").toList)
  if value = "" then .error ⟨400, "Memory content cannot be empty"⟩ else .ok value

/-- `re.sub('/+', '/', text)`, after a slash or not. -/
def squeezeSlashes : Bool → List Char → List Char
  | _, [] => []
  | after, char :: rest =>
    if char = '/' then
      if after then squeezeSlashes true rest else char :: squeezeSlashes true rest
    else char :: squeezeSlashes false rest

/-- `text.strip('/')`. -/
def stripSlashes (text : List Char) : List Char :=
  ((text.dropWhile (fun char => decide (char = '/'))).reverse.dropWhile
    (fun char => decide (char = '/'))).reverse

def badPart (part : List Char) : Bool :=
  decide (part = []) || decide (part = ['.']) || decide (part = ['.', '.'])

def clean_memory_path (path : Option String) : Except HTTPException (Option String) :=
  let value := squeezeSlashes false (stripSlashes (Text.strip (path.getD "").toList))
  if value = [] then .ok none
  else if (Text.split '/' value).any badPart || value.any (fun char => decide (char.toNat < 32)) then
    .error ⟨400, "Invalid memory path"⟩
  else .ok (some (String.ofList value))

def memory_vector_text (content : String) (path : Option String) : Except HTTPException String :=
  (clean_memory_path path).map (fun path =>
    match path with
    | some path => path ++ "\n" ++ content
    | none => content)

def memory_metadata (memory : Memory) : Metadata :=
  ⟨memory.created_at, memory.updated_at, memory.type, memory.path⟩

def itemOf (memory : Memory) : Except HTTPException Item :=
  (memory_vector_text memory.content memory.path).map (fun text => ⟨text, memory_metadata memory⟩)

/-- `Memories.get_memories_by_user_id`. -/
def get_memories_by_user_id (rows : Rows) (user_id : String) : List (String × Memory) :=
  rows.entries.filter (fun row => decide (row.2.user_id = user_id))

/-- `db.get`, with the check of the owner that follows it. -/
def ownRow (rows : Rows) (user_id id : String) : Option Memory :=
  (rows.get? id).filter (fun memory => decide (memory.user_id = user_id))

theorem ownRow_eq_some {rows : Rows} {user_id id : String} {memory : Memory} :
    ownRow rows user_id id = some memory ↔
      rows.get? id = some memory ∧ memory.user_id = user_id := by
  simp [ownRow, Option.filter_eq_some_iff]

theorem mem_get_memories_by_user_id {rows : Rows} {user_id id : String} {memory : Memory} :
    (id, memory) ∈ get_memories_by_user_id rows user_id ↔ ownRow rows user_id id = some memory := by
  rw [get_memories_by_user_id, List.mem_filter, Dict.mem_entries_iff, decide_eq_true_eq,
    ownRow_eq_some]

/-- `upsert` of items, in their order. -/
def upsert (collection : Collection) (items : List (String × Item)) : Collection :=
  items.foldl (fun collection item => collection.set item.1 item.2) collection

/-- `delete` of the items with the ids. -/
def deleteItems (collection : Collection) (ids : List String) : Collection :=
  ids.foldl Dict.erase collection

structure Stores where
  rows : Rows
  collection : Collection

inductive OperationAction where
  | add
  | replace
  | move
  | remove
  deriving DecidableEq

/-- An operation of a batch as a request carries it, with the id that is generated should it add a
memory. -/
structure MemoryOperationModel where
  action : OperationAction
  id : Option String
  content : Option String
  type : Option MemoryType
  path : Option String
  uuid : String

inductive Operation where
  | add (uuid content : String) (type : MemoryType) (path : Option String)
  | replace (id content : String) (type : Option MemoryType) (path : Option String)
  | move (id : String) (path : Option String)
  | remove (id : String)

inductive Request where
  | add (uuid content : String) (type : MemoryType) (path : Option String)
  | batch (operations : List MemoryOperationModel)
  | update (memory_id : String) (content : Option String) (type : Option MemoryType)
      (path : Option String)
  | delete (memory_id : String)
  | delete_all
  | reset

/-- `if not op.get('id')`. -/
def requireId (operation : MemoryOperationModel) (action : String) : Except HTTPException String :=
  match operation.id.filter (fun id => decide (id ≠ "")) with
  | some id => .ok id
  | none => .error ⟨400, "Memory id is required for " ++ action⟩

def validateOperation (operation : MemoryOperationModel) : Except HTTPException Operation :=
  match operation.action with
  | .add => do
    let content ← clean_memory_content operation.content
    let path ← clean_memory_path operation.path
    .ok (.add operation.uuid content (normalize_memory_type operation.type) path)
  | .replace => do
    let id ← requireId operation "replace"
    let content ← clean_memory_content operation.content
    let path ← clean_memory_path operation.path
    .ok (.replace id content (operation.type.map (fun type => normalize_memory_type (some type))) path)
  | .move => do
    let id ← requireId operation "move"
    let path ← clean_memory_path operation.path
    .ok (.move id path)
  | .remove => do
    let id ← requireId operation "remove"
    .ok (.remove id)

def validate_memory_operations (operations : List MemoryOperationModel) :
    Except HTTPException (List Operation) :=
  if operations.isEmpty then .error ⟨400, "No memory operations provided"⟩
  else operations.mapM validateOperation

inductive OperationResult where
  | skipped (memory : Memory)
  | created (id : String) (memory : Memory)
  | updated (id : String) (memory : Memory)
  | deleted (id : String)

/-- The rows as the session of a batch has them, the rows it will delete when it is flushed, and
the results so far. A query does not flush it. -/
structure Session where
  rows : Rows
  deleting : List String
  results : List OperationResult

def Session.flush (session : Session) : Session :=
  { session with rows := session.deleting.foldl Dict.erase session.rows, deleting := [] }

def missing (memory_id : String) : HTTPException := ⟨404, "Memory not found: " ++ memory_id⟩

def Session.unused (session : Session) (uuid : String) : Bool :=
  decide (uuid ∉ session.rows.keys) && session.results.all (fun result =>
    match result with
    | .deleted id => decide (id ≠ uuid)
    | _ => true)

section Requests

variable (user_id : String) (now : Int)

/-- The memory is changed and the session flushed; a row that is being deleted is still found,
and goes with the flush. -/
def change (session : Session) (memory_id : String) (update : Memory → Memory) :
    Except HTTPException Session :=
  match ownRow session.rows user_id memory_id with
  | none => .error (missing memory_id)
  | some memory =>
    .ok ({ session with
      rows := session.rows.set memory_id (update memory)
      results := session.results ++ [.updated memory_id (update memory)] } : Session).flush

def applyOperation (session : Session) : Operation → Except HTTPException Session
  | .add uuid content type path =>
    match session.rows.entries.find? (fun row =>
      decide (row.2.user_id = user_id ∧ row.2.content = content ∧ row.2.type = type ∧
        row.2.path = path)) with
    | some existing => .ok { session with results := session.results ++ [.skipped existing.2] }
    | none =>
      let memory : Memory := ⟨user_id, type, path, content, now, now⟩
      if session.unused uuid then
        .ok ({ session with
          rows := session.rows.set uuid memory
          results := session.results ++ [.created uuid memory] } : Session).flush
      else .error internalError
  | .replace id content type path =>
    change user_id session id (fun memory =>
      { memory with
        content := content
        type := type.getD memory.type
        path := path
        updated_at := now })
  | .move id path =>
    change user_id session id (fun memory => { memory with path := path, updated_at := now })
  | .remove id =>
    match ownRow session.rows user_id id with
    | none => .error (missing id)
    | some _ => .ok { session with
        deleting := session.deleting ++ [id]
        results := session.results ++ [.deleted id] }

/-- `Memories.apply_memory_operations`: the rows after the commit, and the results. -/
def apply_memory_operations (rows : Rows) (operations : List Operation) :
    Except HTTPException (Rows × List OperationResult) :=
  (operations.foldlM (applyOperation user_id now) ⟨rows, [], []⟩).map (fun session =>
    (session.flush.rows, session.results))

def upsertItems : List OperationResult → Except HTTPException (List (String × Item))
  | [] => .ok []
  | .created id memory :: rest => do
    let item ← itemOf memory
    .ok ((id, item) :: (← upsertItems rest))
  | .updated id memory :: rest => do
    let item ← itemOf memory
    .ok ((id, item) :: (← upsertItems rest))
  | .skipped _ :: rest => upsertItems rest
  | .deleted _ :: rest => upsertItems rest

def deleteIds (results : List OperationResult) : List String :=
  results.filterMap (fun result =>
    match result with
    | .deleted id => if id = "" then none else some id
    | _ => none)

def add_memory (stores : Stores) (uuid content : String) (type : MemoryType)
    (path : Option String) : Except HTTPException Stores := do
  let content ← clean_memory_content (some content)
  let path ← clean_memory_path path
  let memory : Memory := ⟨user_id, normalize_memory_type (some type), path, content, now, now⟩
  if uuid ∈ stores.rows.keys then .error internalError
  else
    let item ← itemOf memory
    .ok ⟨stores.rows.set uuid memory, upsert stores.collection [(uuid, item)]⟩

def update_memories (stores : Stores) (operations : List MemoryOperationModel) :
    Except HTTPException Stores := do
  let operations ← validate_memory_operations operations
  let (rows, results) ← apply_memory_operations user_id now stores.rows operations
  let items ← upsertItems results
  .ok ⟨rows, deleteItems (upsert stores.collection items) (deleteIds results)⟩

def cleanUpdate : Option String → Except HTTPException (Option String)
  | some content => (clean_memory_content (some content)).map some
  | none => .ok none

/-- `Memories.update_memory_by_id_and_user_id`; the path is set when one was sent. -/
def updatedMemory (memory : Memory) (content : Option String) (type : Option MemoryType)
    (path : Option String) (update_path : Bool) : Memory :=
  { memory with
    content := content.getD memory.content
    type := (type.map (fun type => normalize_memory_type (some type))).getD memory.type
    path := if update_path then path else memory.path
    updated_at := now }

def update_memory_by_id (stores : Stores) (memory_id : String) (content : Option String)
    (type : Option MemoryType) (path : Option String) : Except HTTPException Stores := do
  let cleaned ← cleanUpdate content
  let clean_path ← clean_memory_path path
  if cleaned = none ∧ type = none ∧ path = none then .error ⟨400, "No memory update provided"⟩
  else
    match ownRow stores.rows user_id memory_id with
    | none => .error ⟨404, ERROR_MESSAGES.NOT_FOUND⟩
    | some memory =>
      let updated := updatedMemory now memory cleaned type clean_path path.isSome
      let rows := stores.rows.set memory_id updated
      -- the collection is only told of a new content or path
      if content.isSome || path.isSome then
        let item ← itemOf updated
        .ok ⟨rows, upsert stores.collection [(memory_id, item)]⟩
      else .ok ⟨rows, stores.collection⟩

def delete_memory_by_id (stores : Stores) (memory_id : String) : Stores :=
  match ownRow stores.rows user_id memory_id with
  | none => stores
  | some _ => ⟨stores.rows.erase memory_id, deleteItems stores.collection [memory_id]⟩

def delete_memory_by_user_id (stores : Stores) : Stores :=
  ⟨((get_memories_by_user_id stores.rows user_id).map Prod.fst).foldl Dict.erase stores.rows,
    Dict.empty⟩

def reset_memory_from_vector_db (stores : Stores) : Except HTTPException Stores := do
  let items ← (get_memories_by_user_id stores.rows user_id).mapM (fun row =>
    (itemOf row.2).map (fun item => (row.1, item)))
  .ok ⟨stores.rows, upsert Dict.empty items⟩

def handle (stores : Stores) : Request → Except HTTPException Stores
  | .add uuid content type path => add_memory user_id now stores uuid content type path
  | .batch operations => update_memories user_id now stores operations
  | .update memory_id content type path =>
    update_memory_by_id user_id now stores memory_id content type path
  | .delete memory_id => .ok (delete_memory_by_id user_id stores memory_id)
  | .delete_all => .ok (delete_memory_by_user_id user_id stores)
  | .reset => reset_memory_from_vector_db user_id stores

end Requests

end OpenWebui.Memories

namespace OpenWebui.Memories

/-- One item for each memory of the user: the one that is written for its row. -/
structure Mirrors (user_id : String) (stores : Stores) : Prop where
  stored : ∀ id memory, ownRow stores.rows user_id id = some memory →
    ∃ item, itemOf memory = .ok item ∧ stores.collection.get? id = some item
  only : ∀ id, ownRow stores.rows user_id id = none → stores.collection.get? id = none

/-- The two stores agree on one id. -/
def Agree (user_id : String) (rows : Rows) (collection : Collection) (id : String) : Prop :=
  (∀ memory, ownRow rows user_id id = some memory →
    ∃ item, itemOf memory = .ok item ∧ collection.get? id = some item) ∧
  (ownRow rows user_id id = none → collection.get? id = none)

theorem mirrors_iff {user_id : String} {stores : Stores} :
    Mirrors user_id stores ↔ ∀ id, Agree user_id stores.rows stores.collection id := by
  constructor
  · intro mirrors id
    exact ⟨mirrors.stored id, mirrors.only id⟩
  · intro agree
    exact ⟨fun id => (agree id).1, fun id => (agree id).2⟩

section Stores

variable {user_id : String} {rows : Rows} {collection : Collection}

theorem ownRow_set (id : String) (memory : Memory) (query : String) :
    ownRow (rows.set id memory) user_id query =
      if id = query then (some memory).filter (fun memory => decide (memory.user_id = user_id))
      else ownRow rows user_id query := by
  unfold ownRow
  rw [Dict.get?_set]
  split <;> rfl

theorem ownRow_foldl_erase (ids : List String) (query : String) :
    ownRow (ids.foldl Dict.erase rows) user_id query =
      if query ∈ ids then none else ownRow rows user_id query := by
  unfold ownRow
  rw [Dict.get?_foldl_erase]
  split <;> rfl

theorem upsert_append (items : List (String × Item)) (id : String) (item : Item) :
    upsert collection (items ++ [(id, item)]) = (upsert collection items).set id item := by
  rw [upsert, List.foldl_append]
  rfl

theorem agree_set {id : String} {memory : Memory} {item : Item} (own : memory.user_id = user_id)
    (written : itemOf memory = .ok item) {query : String}
    (agree : id ≠ query → Agree user_id rows collection query) :
    Agree user_id (rows.set id memory) (collection.set id item) query := by
  unfold Agree
  rw [ownRow_set, Dict.get?_set]
  by_cases same : id = query
  · rw [if_pos same, if_pos same, Option.filter_some, if_pos (decide_eq_true own)]
    refine ⟨?_, fun none => by cases none⟩
    rintro other found
    obtain rfl := Option.some.inj found
    exact ⟨item, written, rfl⟩
  · rw [if_neg same, if_neg same]
    exact agree same

theorem mirrors_set {stores : Stores} (mirrors : Mirrors user_id stores) {id : String}
    {memory : Memory} {item : Item} (own : memory.user_id = user_id)
    (written : itemOf memory = .ok item) :
    Mirrors user_id ⟨stores.rows.set id memory, upsert stores.collection [(id, item)]⟩ :=
  mirrors_iff.mpr (fun query => agree_set own written (fun _ => mirrors_iff.mp mirrors query))

theorem mirrors_delete_memory_by_id {stores : Stores} (mirrors : Mirrors user_id stores)
    (id : String) : Mirrors user_id (delete_memory_by_id user_id stores id) := by
  unfold delete_memory_by_id
  split
  · exact mirrors
  · rw [mirrors_iff]
    intro query
    have erased := @ownRow_foldl_erase user_id stores.rows [id] query
    rw [List.foldl_cons, List.foldl_nil] at erased
    unfold Agree
    simp only [erased, deleteItems, Dict.get?_foldl_erase]
    split
    · refine ⟨?_, fun _ => rfl⟩
      intro memory found
      cases found
    · exact mirrors_iff.mp mirrors query

theorem mirrors_delete_all (stores : Stores) :
    Mirrors user_id (delete_memory_by_user_id user_id stores) := by
  rw [mirrors_iff]
  intro query
  unfold Agree
  simp only [delete_memory_by_user_id, ownRow_foldl_erase]
  refine ⟨?_, fun _ => rfl⟩
  intro memory found
  split at found
  · cases found
  · rename_i absent
    refine absurd (List.mem_map.mpr ⟨(query, memory), ?_, rfl⟩) absent
    exact mem_get_memories_by_user_id.mpr found

theorem mem_items_of_mapM {memories : List (String × Memory)} {items : List (String × Item)}
    (done : memories.mapM (fun row => (itemOf row.2).map (fun item => (row.1, item))) = .ok items) :
    ∀ id item, (id, item) ∈ items ↔ ∃ memory, (id, memory) ∈ memories ∧ itemOf memory = .ok item := by
  have mapped := map_of_mapM done
  intro id item
  have listed : (id, item) ∈ items ↔ Except.ok (id, item) ∈ items.map
      (Except.ok : String × Item → Except HTTPException (String × Item)) := by
    simp
  rw [listed, ← mapped, List.mem_map]
  constructor
  · rintro ⟨⟨place, memory⟩, member, written⟩
    obtain ⟨found, item_of, same⟩ := map_eq_ok.mp written
    obtain ⟨rfl, rfl⟩ := Prod.mk.inj same
    exact ⟨memory, member, item_of⟩
  · rintro ⟨memory, member, item_of⟩
    exact ⟨(id, memory), member, by rw [item_of]; rfl⟩

theorem get?_upsert_absent {items : List (String × Item)} {id : String}
    (absent : ∀ item, (id, item) ∉ items) : (upsert collection items).get? id = collection.get? id := by
  induction items generalizing collection with
  | nil => rfl
  | cons item rest ih =>
    have later := @ih (collection.set item.1 item.2)
      (fun other member => absent other (List.mem_cons_of_mem item member))
    refine later.trans ?_
    rw [Dict.get?_set, if_neg]
    rintro rfl
    exact absent item.2 List.mem_cons_self

theorem get?_upsert_mem {items : List (String × Item)} {id : String} {item : Item}
    (member : (id, item) ∈ items) (single : ∀ other, (id, other) ∈ items → other = item) :
    (upsert collection items).get? id = some item := by
  induction items generalizing collection with
  | nil => cases member
  | cons first rest ih =>
    have apart := fun other inside => single other (List.mem_cons_of_mem first inside)
    by_cases later : (id, item) ∈ rest
    · exact ih later apart
    · have absent : ∀ other, (id, other) ∉ rest :=
        fun other inside => later (apart other inside ▸ inside)
      obtain rfl := (List.mem_cons.mp member).resolve_right later
      refine (get?_upsert_absent absent).trans ?_
      rw [Dict.get?_set, if_pos rfl]

theorem mirrors_reset {stores after : Stores}
    (done : reset_memory_from_vector_db user_id stores = .ok after) : Mirrors user_id after := by
  obtain ⟨items, looped, same⟩ := bind_eq_ok.mp done
  obtain rfl := Except.ok.inj same
  have listed := mem_items_of_mapM looped
  refine ⟨?_, ?_⟩
  · intro id memory found
    have own := mem_get_memories_by_user_id.mpr found
    have answered : (itemOf memory).map (fun item => (id, item)) ∈ items.map Except.ok := by
      rw [← map_of_mapM looped]
      exact List.mem_map.mpr ⟨(id, memory), own, rfl⟩
    obtain ⟨_, _, written⟩ := List.mem_map.mp answered
    obtain ⟨item, item_of, _⟩ := map_eq_ok.mp written.symm
    refine ⟨item, item_of, get?_upsert_mem ((listed id item).mpr ⟨memory, own, item_of⟩) ?_⟩
    intro other member
    obtain ⟨again, stored, other_of⟩ := (listed id other).mp member
    obtain rfl := Option.some.inj (found.symm.trans (mem_get_memories_by_user_id.mp stored))
    exact Except.ok.inj (other_of.symm.trans item_of)
  · intro id absent
    refine get?_upsert_absent (fun item member => ?_)
    obtain ⟨memory, stored, _⟩ := (listed id item).mp member
    have found := mem_get_memories_by_user_id.mp stored
    rw [show ownRow stores.rows user_id id = none from absent] at found
    cases found

end Stores

end OpenWebui.Memories
