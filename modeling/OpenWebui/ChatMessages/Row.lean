import OpenWebui.Base.Json

/-! The rows of the `chat_message` table and the message map rebuilt from them. -/

namespace OpenWebui.ChatMessages

/-- A `chat_message` row. A column that holds no JSON value is null. -/
structure ChatMessage where
  id : String
  chat_id : String
  user_id : Option String := none
  role : String
  parent_id : Option String := none
  content : Json := .null
  output : Json := .null
  model_id : Option String := none
  files : Json := .null
  sources : Json := .null
  embeds : Json := .null
  meta_ : Json := .null
  done : Option Bool := some true
  status_history : Json := .null
  error : Json := .null
  usage : Json := .null
  context_summary : Option String := none
  created_at : Option Int := none
  updated_at : Option Int := none

def textColumn (value : Option String) : Json := (value.map Json.str).getD .null

def boolColumn (value : Option Bool) : Json := (value.map Json.bool).getD .null

def integerColumn (value : Option Int) : Json := (value.map (fun number => Json.num number)).getD .null

def columns (row : ChatMessage) : List (String × Json) :=
  [("id", .str row.id), ("chat_id", .str row.chat_id), ("user_id", textColumn row.user_id),
    ("role", .str row.role), ("parent_id", textColumn row.parent_id), ("content", row.content),
    ("output", row.output), ("model_id", textColumn row.model_id), ("files", row.files),
    ("sources", row.sources), ("embeds", row.embeds), ("meta", row.meta_),
    ("done", boolColumn row.done), ("status_history", row.status_history), ("error", row.error),
    ("usage", row.usage), ("context_summary", textColumn row.context_summary),
    ("created_at", integerColumn row.created_at), ("updated_at", integerColumn row.updated_at)]

/-- `DB_TO_JSON_KEY_MAP.get(key, key)`. -/
def jsonKey (key : String) : String :=
  ([("parent_id", "parentId"), ("model_id", "model"), ("status_history", "statusHistory"),
    ("context_summary", "contextSummary"), ("created_at", "timestamp")].lookup key).getD key

/-- `EXCLUDED_COLUMNS`. -/
def excludedColumns : List String := ["id", "chat_id", "user_id", "updated_at"]

/-- The row id without the `{chat_id}-` in front of it. -/
def message_id (chat_id : String) (row : ChatMessage) : String :=
  let text := (chat_id ++ "-").toList
  if text <+: row.id.toList then String.ofList (row.id.toList.drop text.length) else row.id

def columnField (column : String × Json) : Option (String × Json) :=
  if column.1 ∈ excludedColumns ∨ column.2 = .null then none
  else some (jsonKey column.1, column.2)

def storedFields (row : ChatMessage) : Fields := (columns row).filterMap columnField

/-- `msg.setdefault('content', '')`. -/
def withContent (message : Fields) : Fields :=
  if (message.lookup "content").isSome then message else Assoc.set message "content" (.str "")

/-- The usage, repeated under `info`. -/
def withInfo (message : Fields) : Fields :=
  match message.lookup "usage" with
  | some usage => Assoc.set message "info" (.obj [("usage", usage)])
  | none => message

def rowMessage (chat_id : String) (row : ChatMessage) : Fields :=
  withInfo (withContent (("id", .str (message_id chat_id row)) :: storedFields row))

def rowMessages (chat_id : String) (rows : List ChatMessage) : Dict String Fields :=
  rows.foldl (fun messages row =>
    messages.set (message_id chat_id row) (rowMessage chat_id row)) Dict.empty

def listChild (msg_id : String) (parent : Fields) : Fields :=
  match getField parent "childrenIds" with
  | .arr children =>
    if .str msg_id ∈ children then parent
    else Assoc.set parent "childrenIds" (.arr (children ++ [.str msg_id]))
  | _ => Assoc.set parent "childrenIds" (.arr [.str msg_id])

def listAtParent (messages : Dict String Fields) (entry : String × Fields) : Dict String Fields :=
  match getField entry.2 "parentId" with
  | .str parent_id =>
    if parent_id ≠ "" ∧ parent_id ∈ messages.keys then
      messages.modify parent_id (listChild entry.1)
    else messages
  | _ => messages

def withChildrenIds (message : Fields) : Fields :=
  if (message.lookup "childrenIds").isSome then message
  else Assoc.set message "childrenIds" (.arr [])

def listChildren (messages : Dict String Fields) : Dict String Fields :=
  (messages.entries.foldl listAtParent messages).mapValue (fun _ message => withChildrenIds message)

def get_messages_map_by_chat_id (chat_id : String) (rows : List ChatMessage) :
    Option (Dict String Fields) :=
  if rows.isEmpty then none else some (listChildren (rowMessages chat_id rows))

example : message_id "c" { id := "c-m", chat_id := "c", role := "user" } = "m" := by decide

def rowOf (chat_id : String) (rows : List ChatMessage) (id : String) : Option ChatMessage :=
  rows.reverse.find? (fun row => decide (message_id chat_id row = id))

theorem rowMessages_get? (chat_id : String) (rows : List ChatMessage) (id : String) :
    (rowMessages chat_id rows).get? id = (rowOf chat_id rows id).map (rowMessage chat_id) := by
  rw [rowMessages, Dict.get?_foldl_set, Dict.get?_empty, Option.or_none, rowOf]

theorem getField_columnFields {entries : List (String × Json)} (unique : (Assoc.keys entries).Nodup)
    {key : String} (stored : key ∉ excludedColumns)
    (named : ∀ other ∈ Assoc.keys entries, jsonKey other = jsonKey key → other = key) :
    getField (entries.filterMap columnField) (jsonKey key) = getField entries key := by
  induction entries with
  | nil => rfl
  | cons entry rest ih =>
    rw [Assoc.keys_cons, List.nodup_cons] at unique
    have later := ih unique.2 (fun other member => named other (by simp [member]))
    rw [List.filterMap_cons, getField_cons]
    by_cases same : entry.1 = key
    · have absent : getField rest key = .null := by
        rw [getField, Assoc.lookup_eq_none.mpr (same ▸ unique.1)]
        rfl
      by_cases null : entry.2 = .null
      · simp [columnField, null, same, later, absent]
      · simp [columnField, null, same, stored, getField_cons]
    · have different : jsonKey entry.1 ≠ jsonKey key := fun equal => same (named entry.1 (by simp) equal)
      rw [if_neg same]
      by_cases hidden : entry.1 ∈ excludedColumns ∨ entry.2 = .null
      · simpa [columnField, hidden] using later
      · simpa [columnField, hidden, getField_cons, different] using later

theorem getField_withContent (message : Fields) {key : String} (different : key ≠ "content") :
    getField (withContent message) key = getField message key := by
  unfold withContent
  split
  · rfl
  · simp [different.symm]

theorem getField_withInfo (message : Fields) {key : String} (different : key ≠ "info") :
    getField (withInfo message) key = getField message key := by
  unfold withInfo
  split
  · simp [different.symm]
  · rfl

theorem rowMessage_parentId (chat_id : String) (row : ChatMessage) :
    getField (rowMessage chat_id row) "parentId" = textColumn row.parent_id := by
  have names : Assoc.keys (columns row) = ["id", "chat_id", "user_id", "role", "parent_id",
      "content", "output", "model_id", "files", "sources", "embeds", "meta", "done",
      "status_history", "error", "usage", "context_summary", "created_at", "updated_at"] := rfl
  have column : getField (storedFields row) (jsonKey "parent_id") = textColumn row.parent_id :=
    getField_columnFields (by rw [names]; decide) (by decide) (by rw [names]; decide)
  rw [rowMessage, getField_withInfo _ (by decide), getField_withContent _ (by decide), getField_cons]
  exact column

def withoutChildren (messages : Dict String Fields) : Dict String Fields :=
  messages.mapValue (fun _ message => Assoc.erase message "childrenIds")

theorem erase_listChild (msg_id : String) (parent : Fields) :
    Assoc.erase (listChild msg_id parent) "childrenIds" = Assoc.erase parent "childrenIds" := by
  unfold listChild
  split
  · split
    · rfl
    · exact Assoc.erase_set ..
  · exact Assoc.erase_set ..

theorem erase_withChildrenIds (message : Fields) :
    Assoc.erase (withChildrenIds message) "childrenIds" = Assoc.erase message "childrenIds" := by
  unfold withChildrenIds
  split
  · rfl
  · exact Assoc.erase_set ..

theorem withoutChildren_listAtParent (messages : Dict String Fields) (entry : String × Fields) :
    withoutChildren (listAtParent messages entry) = withoutChildren messages := by
  unfold listAtParent
  split
  · split
    · exact Dict.mapValue_modify fun message _ => erase_listChild ..
    · rfl
  · rfl

theorem withoutChildren_listChildren (messages : Dict String Fields) :
    withoutChildren (listChildren messages) = withoutChildren messages := by
  have rounds : ∀ (entries : List (String × Fields)) current,
      withoutChildren (entries.foldl listAtParent current) = withoutChildren current := by
    intro entries
    induction entries with
    | nil => exact fun _ => rfl
    | cons entry rest ih =>
      intro current
      rw [List.foldl_cons, ih, withoutChildren_listAtParent]
  rw [← rounds messages.entries messages]
  simp only [withoutChildren, listChildren, Dict.mapValue_mapValue, erase_withChildrenIds]

theorem listChildren_field (chat_id : String) (rows : List ChatMessage) (id key : String)
    (different : key ≠ "childrenIds") :
    ((listChildren (rowMessages chat_id rows)).get? id).map (fun message => getField message key) =
      (rowOf chat_id rows id).map (fun row => getField (rowMessage chat_id row) key) := by
  have same := congrArg (fun messages => (messages.get? id).map (fun message => getField message key))
    (withoutChildren_listChildren (rowMessages chat_id rows))
  simp only [withoutChildren, Dict.get?_mapValue, Option.map_map, Function.comp_def,
    getField_erase _ different.symm] at same
  rw [same, rowMessages_get?, Option.map_map]
  rfl

end OpenWebui.ChatMessages
