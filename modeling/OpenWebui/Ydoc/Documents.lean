import Mathlib.Logic.Function.Basic
import OpenWebui.AccessGrants.Queries
import OpenWebui.Base.Dict
import OpenWebui.Base.Json
import OpenWebui.Base.Merging
import OpenWebui.Base.Runs
import OpenWebui.Base.Text

/-! `YdocManager`: the updates of shared documents, in one Redis of many workers or in the memory of
one. A command to Redis is one step of a call, and so is the pipeline that rewrites a list. -/

namespace OpenWebui.Ydoc

universe u v

variable {υ : Type u} {σ : Type v} [SemilatticeSup σ] [OrderBot σ]

def COMPACTION_THRESHOLD : Nat := 500

/-- `document_id.replace(':', '_')`. -/
def storageKey (document_id : String) : String :=
  String.ofList (document_id.toList.map (fun char => if char = ':' then '_' else char))

def rolling (merging : Merging υ σ) (updates : List υ) : List υ :=
  merging.compact (updates.length / 2) updates

/-- How far a call has come: it has pushed its update, found the list too long, or read it. -/
inductive Phase (υ : Type u) where
  | idle
  | pushed (key : String)
  | long (key : String)
  | read (key : String) (all_updates : List υ)
  | returned
  | got (updates : List υ)

def Phase.done : Phase υ → Bool
  | .idle | .returned | .got _ => true
  | .pushed _ | .long _ | .read _ _ => false

inductive Action (υ : Type u) where
  | append_to_updates (document_id : String) (update : υ)
  | llen
  | lrange
  | pipeline
  | get_updates (document_id : String)
  | clear_document (document_id : String)

/-- The lists in Redis and the calls of all workers, with the updates that were appended to each
list since it was cleared. -/
structure Redis (υ : Type u) where
  updates : String → List υ
  calls : Nat → Phase υ
  appended : String → List υ

namespace Redis

def start : Redis υ := ⟨fun _ => [], fun _ => .idle, fun _ => []⟩

def setPhase (redis : Redis υ) (call : Nat) (phase : Phase υ) : Redis υ :=
  { redis with calls := Function.update redis.calls call phase }

def setUpdates (redis : Redis υ) (key : String) (updates : List υ) : Redis υ :=
  { redis with updates := Function.update redis.updates key updates }

def setAppended (redis : Redis υ) (key : String) (updates : List υ) : Redis υ :=
  { redis with appended := Function.update redis.appended key updates }

def get_updates (redis : Redis υ) (document_id : String) : List υ :=
  redis.updates (storageKey document_id)

/-- No call is in progress. -/
def AtRest (redis : Redis υ) : Prop := ∀ call, (redis.calls call).done = true

def act (merging : Merging υ σ) (redis : Redis υ) (event : Nat × Action υ) : Option (Redis υ) :=
  match redis.calls event.1, event.2 with
  | .idle, .append_to_updates document_id update =>
    let key := storageKey document_id
    some (((redis.setUpdates key (redis.updates key ++ [update])).setAppended key
      (redis.appended key ++ [update])).setPhase event.1 (.pushed key))
  | .pushed key, .llen =>
    some (redis.setPhase event.1
      (if COMPACTION_THRESHOLD ≤ (redis.updates key).length then .long key else .returned))
  | .long key, .lrange =>
    some (redis.setPhase event.1
      (if (redis.updates key).length ≤ 1 then .returned else .read key (redis.updates key)))
  | .read key all_updates, .pipeline =>
    some ((redis.setUpdates key (rolling merging all_updates)).setPhase event.1 .returned)
  | .idle, .get_updates document_id =>
    some (redis.setPhase event.1 (.got (redis.get_updates document_id)))
  | .idle, .clear_document document_id =>
    let key := storageKey document_id
    some (((redis.setUpdates key []).setAppended key []).setPhase event.1 .returned)
  | _, _ => none

abbrev run (merging : Merging υ σ) (redis : Redis υ) (events : List (Nat × Action υ)) :
    Option (Redis υ) :=
  events.foldlM (act merging) redis

end Redis

inductive Call (υ : Type u) where
  | append_to_updates (document_id : String) (update : υ)
  | clear_document (document_id : String)

/-- The lists of one worker, with the updates that were appended to each since it was cleared. -/
structure Memory (υ : Type u) where
  updates : Dict String (List υ)
  appended : String → List υ

namespace Memory

def start : Memory υ := ⟨Dict.empty, fun _ => []⟩

def get_updates (memory : Memory υ) (document_id : String) : List υ :=
  (memory.updates.get? (storageKey document_id)).getD []

/-- `_compact_updates_memory`. -/
def compact (merging : Merging υ σ) (updates : List υ) : List υ :=
  if updates.length ≤ 1 then updates else rolling merging updates

def call (merging : Merging υ σ) (memory : Memory υ) : Call υ → Memory υ
  | .append_to_updates document_id update =>
    let key := storageKey document_id
    let updates := (memory.updates.get? key).getD [] ++ [update]
    ⟨memory.updates.set key
        (if COMPACTION_THRESHOLD ≤ updates.length then compact merging updates else updates),
      Function.update memory.appended key (memory.appended key ++ [update])⟩
  | .clear_document document_id =>
    let key := storageKey document_id
    ⟨memory.updates.erase key, Function.update memory.appended key []⟩

abbrev run (merging : Merging υ σ) (memory : Memory υ) (calls : List (Call υ)) : Memory υ :=
  calls.foldl (call merging) memory

end Memory

end OpenWebui.Ydoc

namespace OpenWebui.Ydoc

open AccessGrants (has_access)

universe u v

variable {υ : Type u} {σ : Type v} [SemilatticeSup σ] [OrderBot σ]

structure SocketUser where
  id : String
  role : String

structure Note where
  user_id : String
  data : Fields

structure Save where
  document_id : String
  data : Fields
  user : SocketUser

/-- The stored documents with their users, the session pool, the rooms `doc_{document_id}`, the notes
with the access to them, and the saves that wait. -/
structure Documents (υ : Type u) where
  memory : Memory υ
  users : List (String × String)
  session_pool : Dict String SocketUser
  rooms : List (String × String)
  note : Dict String Note
  access : AccessGrants.Database
  saving : List Save

/-- What a client sends, a save whose time has come, and what is changed elsewhere. -/
inductive SocketEvent (υ : Type u) where
  | signIn (sid : String) (user : SocketUser)
  | join (sid document_id : String)
  | state (sid document_id : String)
  | update (sid document_id : String) (update : υ) (data : Fields) (stopped : Bool)
  | leave (sid document_id : String)
  | disconnect (sid : String)
  | save (position : Nat)
  | change (note : Dict String Note) (access : AccessGrants.Database)

def noteMark : List Char := ['n', 'o', 't', 'e', ':']

/-- `note_` at the front is read as `note:`. -/
def normalize_document_id (document_id : String) : String :=
  if ['n', 'o', 't', 'e', '_'].isPrefixOf document_id.toList then
    String.ofList (noteMark ++ document_id.toList.drop 5)
  else document_id

def isNote (document_id : String) : Bool := noteMark.isPrefixOf document_id.toList

/-- `document_id.split(':')[1]`. -/
def noteId (document_id : String) : String :=
  String.ofList ((Text.split ':' document_id.toList)[1]?.getD [])

namespace Documents

variable (documents : Documents υ)

def permits (user : SocketUser) (note_id permission : String) : Bool :=
  (documents.note.get? note_id).any (fun note =>
    decide (user.role = "admin") || decide (user.id = note.user_id) ||
      has_access documents.access user.id "note" note_id permission none)

def check (user : SocketUser) (document_id permission : String) : Bool :=
  !isNote document_id || documents.permits user (noteId document_id) permission

def add_user (document_id sid : String) : Documents υ :=
  { documents with users := (storageKey document_id, sid) :: documents.users }

def remove_user (document_id sid : String) : Documents υ :=
  { documents with
    users := documents.users.filter (fun entry => decide (entry ≠ (storageKey document_id, sid))) }

def get_users (key : String) : List String :=
  (documents.users.filter (fun entry => decide (entry.1 = key))).map Prod.snd

def get_session_ids_from_room (document_id : String) : List String :=
  (documents.rooms.filter (fun entry => decide (entry.2 = document_id))).map Prod.fst

end Documents

variable (merging : Merging υ σ) (documents : Documents υ)

namespace Documents

def clear_document (document_id : String) : Documents υ :=
  { documents with
    memory := documents.memory.call merging (.clear_document document_id)
    users := documents.users.filter (fun entry => decide (entry.1 ≠ storageKey document_id)) }

def clearUnused (document_id : String) : Documents υ :=
  if (documents.memory.updates.get? (storageKey document_id)).isSome ∧
      documents.get_users (storageKey document_id) = [] then
    documents.clear_document merging document_id
  else documents

def remove_user_from_all_documents (sid : String) : Documents υ :=
  ((documents.users.filter (fun entry => decide (entry.2 = sid))).map Prod.fst).foldl
    (fun documents key =>
      let left : Documents υ := { documents with
        users := documents.users.filter (fun entry => decide (entry ≠ (key, sid))) }
      if left.get_users key = [] then left.clear_document merging key else left) documents

def ydoc_document_join (sid document_id : String) : Documents υ :=
  match documents.session_pool.get? sid with
  | none => documents
  | some user =>
    let document_id := normalize_document_id document_id
    if documents.check user document_id "read" then
      { documents.add_user document_id sid with rooms := documents.rooms ++ [(sid, document_id)] }
    else documents

def writer? (sid document_id : String) : Option SocketUser :=
  if sid ∈ documents.get_session_ids_from_room document_id then
    (documents.session_pool.get? sid).filter (fun user =>
      documents.check user document_id "write")
  else none

def yjs_document_update (sid document_id : String) (update : υ) (data : Fields) (stopped : Bool) :
    Documents υ :=
  let document_id := normalize_document_id document_id
  match documents.writer? sid document_id with
  | none => documents
  | some user =>
    { documents with
      memory := documents.memory.call merging (.append_to_updates document_id update)
      saving := documents.saving.filter (fun save =>
          !(stopped && decide (save.document_id = document_id))) ++
        if data = [] then [] else [⟨document_id, data, user⟩] }

def yjs_document_leave (sid document_id : String) : Documents υ :=
  if (documents.session_pool.get? sid).isSome then
    let document_id := normalize_document_id document_id
    let left : Documents υ := { documents.remove_user document_id sid with
      rooms := documents.rooms.filter (fun entry => decide (entry ≠ (sid, document_id))) }
    left.clearUnused merging document_id
  else documents

def disconnect (sid : String) : Documents υ :=
  let gone : Documents υ := { documents with
    rooms := documents.rooms.filter (fun entry => decide (entry.1 ≠ sid)) }
  if (documents.session_pool.get? sid).isSome then
    { gone with session_pool := documents.session_pool.erase sid
      }.remove_user_from_all_documents merging sid
  else gone

def document_save_handler (save : Save) : Documents υ :=
  let document_id := normalize_document_id save.document_id
  if isNote document_id then
    if documents.permits save.user (noteId document_id) "write" then
      { documents with
        note := documents.note.modify (noteId document_id) (fun note =>
          { note with data := Assoc.merge note.data save.data }) }
    else documents
  else documents

def step : SocketEvent υ → Documents υ
  | .signIn sid user => { documents with session_pool := documents.session_pool.set sid user }
  | .join sid document_id => documents.ydoc_document_join sid document_id
  | .state _ _ => documents
  | .update sid document_id update data stopped =>
    documents.yjs_document_update merging sid document_id update data stopped
  | .leave sid document_id => documents.yjs_document_leave merging sid document_id
  | .disconnect sid => documents.disconnect merging sid
  | .save position =>
    match documents.saving[position]? with
    | none => documents
    | some save =>
      { documents with saving := documents.saving.eraseIdx position }.document_save_handler save
  | .change note access => { documents with note := note, access := access }

def delivered : SocketEvent υ → List (String × String)
  | .join sid document_id =>
    match documents.session_pool.get? sid with
    | none => []
    | some user =>
      if documents.check user (normalize_document_id document_id) "read" then
        [(sid, storageKey (normalize_document_id document_id))]
      else []
  | .state sid document_id =>
    let document_id := normalize_document_id document_id
    if sid ∈ documents.get_session_ids_from_room document_id ∧
        (documents.memory.updates.get? (storageKey document_id)).isSome then
      [(sid, storageKey document_id)]
    else []
  | .update sid document_id _ _ _ =>
    let document_id := normalize_document_id document_id
    if (documents.writer? sid document_id).isSome then
      ((documents.get_session_ids_from_room document_id).filter (fun other =>
        decide (other ≠ sid))).map (fun other => (other, storageKey document_id))
    else []
  | _ => []

end Documents

end OpenWebui.Ydoc
