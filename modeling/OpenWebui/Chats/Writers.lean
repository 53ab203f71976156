import Mathlib.Logic.Function.Basic
import OpenWebui.Base.Runs
import OpenWebui.Chats.UpsertMessage
import OpenWebui.Utils.MessageText
import OpenWebui.Utils.Usage

/-! The writers of a stored chat: each selects the whole history in one statement and writes a
changed copy back in a later one. -/

namespace OpenWebui.Chats

open Utils (get_output_text)
open Utils (asNumber)

def laterLeaf (latest : Option String × Rat) (entry : String × Fields) :
    Except PyError (Option String × Rat) :=
  if (getField entry.2 "role").truthy ∧ listOrEmpty (getField entry.2 "childrenIds") = .arr [] then
    match asNumber ((getField entry.2 "timestamp").orElse (.num 0)) with
    | some timestamp => .ok (if latest.2 < timestamp then (some entry.1, timestamp) else latest)
    | none => .error .typeError
  else .ok latest

def currentHealthy (messages : Messages) (current_message : Option Fields) (output_role : Json) :
    Bool :=
  match current_message with
  | some message =>
    (getField message "id").truthy && (getField message "role").truthy &&
      !(decide (output_role = .str "assistant") && decide (getField message "parentId" = .null) &&
        !(getField message "timestamp").truthy && decide (1 < messages.keys.length))
  | none => false

def repair_chat_current_id (history : History) : Except PyError History := do
  let current_message ← history.messages.getJson? history.currentId
  let output_role ← outputRole (current_message.getD [])
  if currentHealthy history.messages current_message output_role then .ok history
  else do
    let latest ← history.messages.entries.foldlM laterLeaf (none, -1)
    match latest.1 with
    | some latest_leaf_id =>
      .ok (if latest_leaf_id = "" then history
        else { history with currentId := .str latest_leaf_id })
    | none => .ok history

/-- A call of a writer. The emitter's `status` event does what `add_message_status` does, its
`citation` event what its `source` event does. -/
inductive Write where
  | upsert_message (message_id : String) (message : Fields)
  | add_message_status (message_id : String) (status : Json)
  | add_message_files (message_id : String) (files : List Json)
  | embeds_event (message_id : String) (embeds : List Json)
  | files_event (message_id : String) (files : List Json)
  | source_event (message_id : String) (data : Json)

namespace Write

def message_id : Write → String
  | upsert_message message_id _ | add_message_status message_id _ | add_message_files message_id _
  | embeds_event message_id _ | files_event message_id _ | source_event message_id _ => message_id

def field : Write → Option String
  | upsert_message _ _ => none
  | add_message_status _ _ => some "statusHistory"
  | add_message_files _ _ | files_event _ _ => some "files"
  | embeds_event _ _ => some "embeds"
  | source_event _ _ => some "sources"

def items : Write → List Json
  | upsert_message _ _ => []
  | add_message_status _ status => [status]
  | add_message_files _ files | files_event _ files => files
  | embeds_event _ embeds => embeds
  | source_event _ data => [data]

end Write

def withContent (formatting : Formatting) (message : Fields) : Fields :=
  if (getField message "content").truthy then message
  else
    let output_text := get_output_text formatting (getField message "output")
    if output_text = "" then message else Assoc.set message "content" (.str output_text)

/-- `dict.get(key, [])` where only a list can be appended to. -/
def listField (message : Fields) (key : String) : Except PyError (List Json) :=
  match getFieldD message key (.arr []) with
  | .arr items => .ok items
  | _ => .error .attributeError

def upsertPayload (formatting : Formatting) (write : Write) (message : Fields) :
    Except PyError Fields :=
  match write with
  | .upsert_message _ payload => .ok (withContent formatting payload)
  | .embeds_event _ embeds => do
    let old ← (getFieldD message "embeds" (.arr [])).iterate
    .ok [("embeds", .arr (embeds ++ old))]
  | .files_event _ files => do
    let old ← (getFieldD message "files" (.arr [])).iterate
    .ok [("files", .arr (files ++ old))]
  | .source_event _ data => do
    let old ← listField message "sources"
    .ok [("sources", .arr (old ++ [data]))]
  | .add_message_status _ _ | .add_message_files _ _ => .error .typeError

inductive Stage where
  | idle
  /-- `get_chat_by_id` writes the chat it has repaired. -/
  | repairing (chat : History)
  /-- `get_chat_by_id` has returned a chat. -/
  | fetched (chat : History)
  /-- The message that was read, and the row that is about to be written. -/
  | loaded (message : Fields) (chat : History)
  | finished (success : Bool)

/-- `get_chat_by_id`. -/
def fetch (stored : History) : Stage :=
  match repair_chat_current_id stored with
  | .ok chat => if chat.currentId = stored.currentId then .fetched chat else .repairing chat
  | .error _ => .finished false

/-- `session.get` of a writer, and the repair of what it gives. -/
def load (message : Fields) (stored : History) : Stage :=
  match repair_chat_current_id stored with
  | .ok chat => .loaded message chat
  | .error _ => .finished false

def appendTo (history : History) (message_id key : String) (items : List Json) :
    Except PyError History :=
  match history.messages.get? message_id with
  | some message => do
    let old ← listField message key
    .ok { history with
      messages := history.messages.set message_id (Assoc.set message key (.arr (old ++ items))) }
  | none => .ok history

def store (stored : History) (result : Except PyError History) : History × Stage :=
  match result with
  | .ok chat => (chat, .finished true)
  | .error _ => (stored, .finished false)

def next (formatting : Formatting) (now : Int) (write : Write) (stored : History) :
    Stage → Option (History × Stage)
  | .idle =>
    match write with
    | .upsert_message _ _ | .add_message_status _ _ => some (stored, load [] stored)
    | _ => some (stored, fetch stored)
  | .repairing chat => some (chat, .fetched chat)
  | .fetched chat =>
    match write with
    | .add_message_files message_id files =>
      some (store stored (appendTo chat message_id "files" files))
    | _ =>
      let message := (chat.messages.get? write.message_id).getD []
      match upsertPayload formatting write message with
      | .ok _ => some (stored, load message stored)
      | .error _ => some (stored, .finished false)
  | .loaded message chat =>
    match write with
    | .add_message_status message_id status =>
      some (store stored (appendTo chat message_id "statusHistory" [status]))
    | _ => some (store stored (do
      let payload ← upsertPayload formatting write message
      let result ← upsert_message_to_history now chat write.message_id payload
      .ok result.1))
  | .finished _ => none

/-- The stored history, the calls, and those that have reported success, in their order. -/
structure Writers where
  stored : History
  calls : Nat → Stage
  succeeded : List Nat

namespace Writers

def start (stored : History) : Writers := ⟨stored, fun _ => .idle, []⟩

def act (formatting : Formatting) (writes : Nat → Write) (writers : Writers) (event : Nat × Int) :
    Option Writers :=
  (next formatting event.2 (writes event.1) writers.stored (writers.calls event.1)).map
    (fun result => ⟨result.1, Function.update writers.calls event.1 result.2,
      match result.2 with
      | .finished true => writers.succeeded ++ [event.1]
      | _ => writers.succeeded⟩)

abbrev run (formatting : Formatting) (writes : Nat → Write) (writers : Writers)
    (events : List (Nat × Int)) : Option Writers :=
  events.foldlM (act formatting writes) writers

end Writers

end OpenWebui.Chats
