import OpenWebui.ChatMessages.Row
import OpenWebui.Utils.MergeUsage

/-! `ChatMessages.upsert_message`: every column sent is overwritten, but usage is
added to the usage stored before. -/

namespace OpenWebui.ChatMessages

open Utils

def sends (data : Fields) (key : String) : Bool := (data.lookup key).isSome

/-- `data.get(first) or data.get(second)`. -/
def eitherField (data : Fields) (first second : String) : Json :=
  (getField data first).orElse (getField data second)

def textValue : Json → Except PyError (Option String)
  | .null => .ok none
  | .str text => .ok (some text)
  | _ => .error .typeError

def requiredText : Json → Except PyError String
  | .str text => .ok text
  | _ => .error .typeError

def boolValue : Json → Except PyError (Option Bool)
  | .null => .ok none
  | .bool value => .ok (some value)
  | _ => .error .typeError

def integerValue : Json → Except PyError (Option Int)
  | .null => .ok none
  | .num value => if value.den = 1 then .ok (some value.num) else .error .typeError
  | _ => .error .typeError

/-- `data.get('usage') or (data.get('info') or {}).get('usage')`. -/
def reportedUsage (data : Fields) : Except PyError Json :=
  if (getField data "usage").truthy then .ok (getField data "usage")
  else match (getField data "info").orElse (.obj []) with
    | .obj info => .ok (getField info "usage")
    | _ => .error .attributeError

/-- `normalize_usage(usage) if usage else` nothing. -/
def normalizedUsage (usage : Json) : Except PyError Fields :=
  if usage.truthy then
    match usage with
    | .obj fields => normalize_usage fields
    | _ => .error .attributeError
  else .ok []

def get_usage (data : Fields) : Except PyError Fields := do
  let usage ← reportedUsage data
  normalizedUsage usage

def updatedUsage (stored : Json) (data : Fields) : Except PyError Json := do
  let usage ← get_usage data
  if usage.isEmpty then .ok stored
  else do
    let existing_usage ← normalizedUsage stored
    if Json.equal (.obj usage) (.obj existing_usage) then .ok (.obj existing_usage)
    else do
      let merged ← merge_usage existing_usage usage
      .ok (.obj merged)

def overwritten {α : Type} (sent : Bool) (value : Except PyError α) (old : α) : Except PyError α :=
  if sent then value else .ok old

def updatedField (data : Fields) (key : String) (old : Json) : Json :=
  if sends data key then getField data key else old

def updateRow (now : Int) (existing : ChatMessage) (data : Fields) : Except PyError ChatMessage := do
  let role ← overwritten (sends data "role") (requiredText (getField data "role")) existing.role
  let parent_id ← overwritten (sends data "parent_id" || sends data "parentId")
    (textValue (eitherField data "parent_id" "parentId")) existing.parent_id
  let model_id ← overwritten (sends data "model_id" || sends data "model")
    (textValue (eitherField data "model_id" "model")) existing.model_id
  let done ← overwritten (sends data "done") (boolValue (getFieldD data "done" (.bool true)))
    existing.done
  let context_summary ← overwritten (sends data "context_summary" || sends data "contextSummary")
    (textValue (eitherField data "context_summary" "contextSummary")) existing.context_summary
  let usage ← updatedUsage existing.usage data
  .ok { existing with
    role, parent_id, model_id, done, context_summary, usage
    content := updatedField data "content" existing.content
    output := updatedField data "output" existing.output
    files := updatedField data "files" existing.files
    sources := updatedField data "sources" existing.sources
    embeds := updatedField data "embeds" existing.embeds
    meta_ := updatedField data "meta" existing.meta_
    status_history :=
      if sends data "status_history" || sends data "statusHistory" then
        eitherField data "status_history" "statusHistory"
      else existing.status_history
    error := updatedField data "error" existing.error
    updated_at := some now }

def insertRow (now : Int) (composite_id chat_id user_id : String) (data : Fields) :
    Except PyError ChatMessage := do
  let usage ← get_usage data
  let role ← requiredText (getFieldD data "role" (.str "user"))
  let parent_id ← textValue (eitherField data "parent_id" "parentId")
  let model_id ← textValue (eitherField data "model_id" "model")
  let done ← boolValue (getFieldD data "done" (.bool true))
  let context_summary ← textValue (eitherField data "context_summary" "contextSummary")
  let created_at ← integerValue (getFieldD data "timestamp" (.num now))
  .ok {
    id := composite_id, chat_id, user_id := some user_id
    role, parent_id, model_id, done, context_summary, created_at
    content := getField data "content"
    output := getField data "output"
    files := getField data "files"
    sources := getField data "sources"
    embeds := getField data "embeds"
    meta_ := getField data "meta"
    status_history := eitherField data "status_history" "statusHistory"
    error := getField data "error"
    usage := if usage.isEmpty then .null else .obj usage
    updated_at := some now }

abbrev Table := Dict String ChatMessage

def compositeId (chat_id message_id : String) : String := chat_id ++ "-" ++ message_id

def writtenRow (now : Int) (table : Table) (composite_id chat_id user_id : String)
    (data : Fields) : Except PyError ChatMessage :=
  match table.get? composite_id with
  | some existing => updateRow now existing data
  | none => insertRow now composite_id chat_id user_id data

def upsert_message (now : Int) (table : Table) (message_id chat_id user_id : String)
    (data : Fields) : Except PyError (Table × ChatMessage) := do
  let row ← writtenRow now table (compositeId chat_id message_id) chat_id user_id data
  .ok (table.set (compositeId chat_id message_id) row, row)

theorem overwritten_again {α : Type} {sent : Bool} {value : Except PyError α} {old new : α}
    (stored : overwritten sent value old = .ok new) : overwritten sent value new = .ok new := by
  unfold overwritten at stored ⊢
  split
  · rename_i given
    rwa [if_pos given] at stored
  · rfl

theorem overwritten_same {α : Type} {sent : Bool} {value : Except PyError α} {new : α}
    (read : value = .ok new) : overwritten sent value new = .ok new := by
  unfold overwritten
  split
  · exact read
  · rfl

theorem updatedField_again (data : Fields) (key : String) (old : Json) :
    updatedField data key (updatedField data key old) = updatedField data key old := by
  unfold updatedField
  split <;> rfl

theorem updatedField_same (data : Fields) (key : String) :
    updatedField data key (getField data key) = getField data key := by
  unfold updatedField
  split <;> rfl

section Again

variable {now : Int} {existing row : ChatMessage} {data : Fields}

theorem updateRow_again (written : updateRow now existing data = .ok row) (later : Int) :
    updateRow later row data = (updatedUsage row.usage data).map (fun usage =>
      { row with usage, updated_at := some later }) := by
  simp only [updateRow, bind_eq_ok] at written
  obtain ⟨role, roleRead, parent_id, parentRead, model_id, modelRead, done, doneRead, context_summary,
    summaryRead, usage, usageRead, same⟩ := written
  cases same
  simp only [updateRow, overwritten_again roleRead, overwritten_again parentRead,
    overwritten_again modelRead, overwritten_again doneRead, overwritten_again summaryRead,
    updatedField_again, bind, Except.bind, Except.map]
  cases updatedUsage usage data with
  | error error => rfl
  | ok again =>
    simp only [Except.ok.injEq, ChatMessage.mk.injEq, true_and, and_true]
    split <;> simp [*]

theorem insertRow_again {composite_id chat_id user_id : String}
    (written : insertRow now composite_id chat_id user_id data = .ok row) (later : Int) :
    updateRow later row data = (updatedUsage row.usage data).map (fun usage =>
      { row with usage, updated_at := some later }) := by
  simp only [insertRow, bind_eq_ok] at written
  obtain ⟨usage, usageRead, role, roleRead, parent_id, parentRead, model_id, modelRead, done, doneRead,
    context_summary, summaryRead, created_at, createdRead, same⟩ := written
  cases same
  have roleAgain : overwritten (sends data "role") (requiredText (getField data "role")) role =
      .ok role := by
    cases sent : data.lookup "role" with
    | none => simp [overwritten, sends, sent]
    | some value =>
      apply overwritten_same
      rw [← roleRead]
      simp [getField, getFieldD, sent]
  simp only [updateRow, roleAgain, overwritten_same parentRead, overwritten_same modelRead,
    overwritten_same doneRead, overwritten_same summaryRead, updatedField_same, bind, Except.bind,
    Except.map]
  cases updatedUsage _ data with
  | error error => rfl
  | ok again => simp

end Again

/-- No usage, or an object that reports whole numbers of tokens and repeats no key. -/
def WholeUsage (usage : Json) : Prop :=
  usage.truthy = false ∨
    ∃ fields, usage = .obj fields ∧ TokenCounts fields ∧ (Json.obj fields).unique = true

theorem WholeUsage.normalizedUsage_ok {usage : Json} (whole : WholeUsage usage) :
    ∃ normal, normalizedUsage usage = .ok normal ∧ Settled normal ∧
      (Json.obj normal).unique = true := by
  rcases whole with none | ⟨fields, rfl, counts, unique⟩
  · exact ⟨[], by simp [normalizedUsage, none], .inl rfl, rfl⟩
  · cases fields with
    | nil => exact ⟨[], rfl, .inl rfl, rfl⟩
    | cons field rest =>
      obtain ⟨result, input, output, total, run, normal, kept⟩ :=
        normalize_of_counts counts (by simp)
      exact ⟨result, by simpa [normalizedUsage] using run, .inr ⟨_, _, _, normal⟩, kept unique⟩

theorem Settled.normalizedUsage {usage : Fields} (settled : Settled usage) :
    ChatMessages.normalizedUsage (.obj usage) = .ok usage := by
  unfold ChatMessages.normalizedUsage
  cases usage with
  | nil => rfl
  | cons field rest => simpa using settled.normalize

theorem updatedUsage_eq {stored : Json} {data existing_usage usage : Fields}
    (existing : normalizedUsage stored = .ok existing_usage) (sent : get_usage data = .ok usage)
    (before : Settled existing_usage) (after : Settled usage) (filled : usage ≠ []) :
    updatedUsage stored data = .ok (.obj (accumulate existing_usage usage)) := by
  have present : usage.isEmpty = false := by simpa using filled
  simp only [updatedUsage, sent, existing, merge_usage_eq before after filled, bind, Except.bind,
    present, accumulate, Bool.false_eq_true, if_false]
  split <;> rfl

def storedUsage (table : Table) (id : String) : Json :=
  ((table.get? id).map (fun row => row.usage)).getD .null

/-- Two writes left the same row, apart from `updated_at`, and the same table
around it. -/
structure SameWrite (id : String) (first second : Table × ChatMessage) : Prop where
  usage : Json.equal second.2.usage first.2.usage = true
  columns : { second.2 with usage := .null, updated_at := none } =
    { first.2 with usage := .null, updated_at := none }
  others : ∀ other, other ≠ id → second.1.get? other = first.1.get? other

/-- The usage of a payload can be sent again: it reports none, or it is counted once. -/
def Resendable (stored sent : Except PyError Fields) : Prop :=
  ∀ existing_usage usage, stored = .ok existing_usage → sent = .ok usage →
    usage = [] ∨ SentOnce existing_usage usage

section Write

variable {now : Int} {table : Table} {message_id chat_id user_id : String} {data : Fields}
  {first : Table × ChatMessage}

theorem updateRow_usage {existing row : ChatMessage}
    (written : updateRow now existing data = .ok row) :
    updatedUsage existing.usage data = .ok row.usage := by
  simp only [updateRow, bind_eq_ok] at written
  obtain ⟨_, _, _, _, _, _, _, _, _, _, usage, usageRead, same⟩ := written
  cases same
  exact usageRead

theorem insertRow_usage {composite_id : String} {row : ChatMessage} {usage : Fields}
    (written : insertRow now composite_id chat_id user_id data = .ok row)
    (sent : get_usage data = .ok usage) :
    row.usage = if usage.isEmpty then .null else .obj usage := by
  simp only [insertRow, bind_eq_ok] at written
  obtain ⟨other, read, _, _, _, _, _, _, _, _, _, _, _, _, same⟩ := written
  cases same
  cases Except.ok.inj (sent.symm.trans read)
  rfl

theorem upsert_message_row
    (written : upsert_message now table message_id chat_id user_id data = .ok first)
    (later : Int) :
    first.1 = table.set (compositeId chat_id message_id) first.2 ∧
      upsert_message later first.1 message_id chat_id user_id data =
        (updatedUsage first.2.usage data).map (fun usage =>
          (first.1.set (compositeId chat_id message_id)
            { first.2 with usage, updated_at := some later },
            { first.2 with usage, updated_at := some later })) := by
  simp only [upsert_message, bind_eq_ok] at written
  obtain ⟨row, rowRead, same⟩ := written
  cases same
  refine ⟨rfl, ?_⟩
  have again : updateRow later row data = (updatedUsage row.usage data).map (fun usage =>
      { row with usage, updated_at := some later }) := by
    cases found : table.get? (compositeId chat_id message_id) with
    | none => exact insertRow_again (by simpa [writtenRow, found] using rowRead) later
    | some existing => exact updateRow_again (by simpa [writtenRow, found] using rowRead) later
  simp only [upsert_message, writtenRow, Dict.get?_set, ↓reduceIte, again, bind, Except.bind, Except.map]
  cases updatedUsage row.usage data <;> rfl

theorem upsert_message_usage {existing_usage usage : Fields}
    (written : upsert_message now table message_id chat_id user_id data = .ok first)
    (existing : normalizedUsage (storedUsage table (compositeId chat_id message_id)) =
      .ok existing_usage)
    (sent : get_usage data = .ok usage) (before : Settled existing_usage) (after : Settled usage)
    (filled : usage ≠ []) :
    first.2.usage = .obj (accumulate existing_usage usage) := by
  simp only [upsert_message, bind_eq_ok] at written
  obtain ⟨row, rowRead, same⟩ := written
  cases same
  cases found : table.get? (compositeId chat_id message_id) with
  | none =>
    have nothing : existing_usage = [] := by
      simpa [storedUsage, found, normalizedUsage] using existing.symm
    have usageRead := insertRow_usage (by simpa [writtenRow, found] using rowRead) sent
    rw [usageRead, if_neg (by simpa using filled), nothing]
    unfold accumulate
    split
    · rename_i same
      cases usage with
      | nil => exact absurd rfl filled
      | cons field rest => simp [Json.equal, Json.loose] at same
    · rfl
  | some row =>
    simp only [storedUsage, found, Option.map_some, Option.getD_some] at existing
    have usageRead := updateRow_usage (by simpa [writtenRow, found] using rowRead)
    rw [updatedUsage_eq existing sent before after filled] at usageRead
    exact (Except.ok.inj usageRead).symm

theorem reportedUsage_of_written
    (written : upsert_message now table message_id chat_id user_id data = .ok first) :
    ∃ reported, reportedUsage data = .ok reported := by
  cases read : reportedUsage data with
  | ok reported => exact ⟨reported, rfl⟩
  | error error =>
    simp only [upsert_message, bind_eq_ok] at written
    obtain ⟨row, rowRead, _⟩ := written
    have failed : get_usage data = .error error := by
      simp [get_usage, read, bind, Except.bind]
    cases found : table.get? (compositeId chat_id message_id) with
    | none => simp [writtenRow, found, insertRow, failed, bind, Except.bind] at rowRead
    | some existing =>
      have usageRead := updateRow_usage (by simpa [writtenRow, found] using rowRead)
      simp [updatedUsage, failed, bind, Except.bind] at usageRead

end Write

def storedRow : ChatMessage :=
  { id := "chat-m", chat_id := "chat", role := "assistant",
    usage := .obj [("input_tokens", .num 1), ("output_tokens", .num 1), ("total_tokens", .num 2)] }

def storedTable : Table := Dict.ofEntries [("chat-m", storedRow)]

def grownUsage : Fields :=
  [("usage", .obj [("input_tokens", .num 2), ("output_tokens", .num 2), ("total_tokens", .num 4)])]

end OpenWebui.ChatMessages
