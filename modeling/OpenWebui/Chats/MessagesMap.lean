import OpenWebui.Base.Json
import OpenWebui.Base.ParentLinks
import OpenWebui.ChatMessages.Row
import OpenWebui.Utils.Branch

/-! The message history of a chat. -/

namespace OpenWebui.Chats

/-- A `history` object: the message map, the current id and the other fields. -/
structure HistoryOf (Messages : Type) where
  messages : Messages
  currentId : Json
  fields : Dict String Json

abbrev Messages := Dict String Fields

abbrev History := HistoryOf Messages

def linkParent (message : Fields) : Option String := (getField message "parentId").str?

def linkChildren (message : Fields) : List String :=
  match message.lookup "childrenIds" with
  | some (.arr items) => items.filterMap Json.str?
  | _ => []

/-- `parentId` is absent, null or an id; `childrenIds` is absent or a list of ids. -/
def linksTyped (message : Fields) : Bool :=
  (getField message "parentId" == .null || (linkParent message).isSome) &&
    match message.lookup "childrenIds" with
    | none => true
    | some (.arr items) => items.all (fun item => item.str?.isSome)
    | some _ => false

def links (messages : Messages) : ParentLinks String where
  nodes := messages.keys
  parent id := (messages.get? id).bind linkParent
  children id := ((messages.get? id).map linkChildren).getD []

/-- The messages form a forest with mirrored links. -/
structure WellFormed (messages : Messages) : Prop where
  typed : ∀ entry ∈ messages.entries, linksTyped entry.2 = true
  forest : (links messages).Forest

instance (messages : Messages) : Decidable (WellFormed messages) :=
  decidable_of_iff ((∀ entry ∈ messages.entries, linksTyped entry.2 = true) ∧
      (links messages).Forest)
    ⟨fun both => ⟨both.1, both.2⟩, fun wellFormed => ⟨wellFormed.typed, wellFormed.forest⟩⟩

theorem WellFormed.typed_of_get? {messages : Messages} (wellFormed : WellFormed messages)
    {id : String} {message : Fields} (found : messages.get? id = some message) :
    linksTyped message = true :=
  wellFormed.typed (id, message) (Dict.mem_entries_iff.mpr found)

@[simp] theorem links_nodes (messages : Messages) : (links messages).nodes = messages.keys := rfl

theorem links_parent {messages : Messages} {id : String} {message : Fields}
    (found : messages.get? id = some message) :
    (links messages).parent id = linkParent message := by
  simp [links, found]

theorem links_children {messages : Messages} {id : String} {message : Fields}
    (found : messages.get? id = some message) :
    (links messages).children id = linkChildren message := by
  simp [links, found]

theorem linkParent_eq_some {message : Fields} {id : String} :
    linkParent message = some id ↔ getField message "parentId" = .str id := Json.str?_eq_some

theorem parentField_of_typed {message : Fields} (typed : linksTyped message = true) :
    getField message "parentId" = ((linkParent message).map Json.str).getD .null := by
  cases named : linkParent message with
  | none =>
    simp only [linksTyped, named, Bool.and_eq_true, Bool.or_eq_true, beq_iff_eq] at typed
    simpa using typed.1
  | some id => simpa using linkParent_eq_some.mp named

private theorem map_str_filterMap {items : List Json}
    (strings : items.all (fun item => item.str?.isSome) = true) :
    (items.filterMap Json.str?).map Json.str = items := by
  induction items with
  | nil => rfl
  | cons item rest ih =>
    simp only [List.all_cons, Bool.and_eq_true] at strings
    obtain ⟨text, named⟩ := Option.isSome_iff_exists.mp strings.1
    simp [Json.str?_eq_some.mp named, Json.str?, ih strings.2]

theorem childField_of_typed {message : Fields} (typed : linksTyped message = true) :
    message.lookup "childrenIds" = none ∧ linkChildren message = [] ∨
      message.lookup "childrenIds" = some (.arr ((linkChildren message).map Json.str)) := by
  cases stored : message.lookup "childrenIds" with
  | none => exact .inl ⟨rfl, by simp [linkChildren, stored]⟩
  | some value =>
    cases value with
    | arr items =>
      have strings : items.all (fun item => item.str?.isSome) = true := by
        simp only [linksTyped, stored, Bool.and_eq_true] at typed
        exact typed.2
      right
      rw [show linkChildren message = items.filterMap Json.str? by simp [linkChildren, stored],
        map_str_filterMap strings]
    | _ => simp [linksTyped, stored] at typed

@[simp] theorem linkParent_set_childrenIds (message : Fields) (value : Json) :
    linkParent (Assoc.set message "childrenIds" value) = linkParent message := by
  simp [linkParent]

@[simp] theorem linkParent_set_parentId (message : Fields) (value : Json) :
    linkParent (Assoc.set message "parentId" value) = value.str? := by
  simp [linkParent]

@[simp] theorem linkChildren_set_parentId (message : Fields) (value : Json) :
    linkChildren (Assoc.set message "parentId" value) = linkChildren message := by
  simp [linkChildren]

theorem linkChildren_of_list {message : Fields} {ids : List String}
    (stored : message.lookup "childrenIds" = some (.arr (ids.map Json.str))) :
    linkChildren message = ids := by
  simp [linkChildren, stored, List.filterMap_map, Function.comp_def, Json.str?]

@[simp] theorem linkChildren_set_childrenIds (message : Fields) (ids : List String) :
    linkChildren (Assoc.set message "childrenIds" (.arr (ids.map Json.str))) = ids :=
  linkChildren_of_list (by simp)

theorem linksTyped_set_childrenIds {message : Fields} (typed : linksTyped message = true)
    (ids : List String) :
    linksTyped (Assoc.set message "childrenIds" (.arr (ids.map Json.str))) = true := by
  simp only [linksTyped, Bool.and_eq_true] at typed ⊢
  exact ⟨by simpa using typed.1, by simp [Json.str?]⟩

theorem linksTyped_set_parentId {message : Fields} (typed : linksTyped message = true)
    (value : Json) (accepted : value = .null ∨ value.str?.isSome = true) :
    linksTyped (Assoc.set message "parentId" value) = true := by
  simp only [linksTyped, Bool.and_eq_true] at typed ⊢
  refine ⟨?_, by simpa using typed.2⟩
  rcases accepted with rfl | named <;> simp [*]

open ChatMessages Utils

def unresolvedParent (messages_map : Dict String Fields) (message : Fields) :
    Except PyError (Option Json) := do
  let parent_id := getField message "parentId"
  if parent_id.truthy then
    let found ← messages_map.hasJson parent_id
    .ok (if found then none else some parent_id)
  else .ok none

def get_unresolved_parent_ids (messages_map : Dict String Fields) : Except PyError (List Json) := do
  let ids ← messages_map.entries.mapM (fun entry => unresolvedParent messages_map entry.2)
  .ok (ids.filterMap id).eraseDups

/-- `chat.get('history', {}).get('messages', {}) or {}`, for a message part that
is an object. -/
def historyMessages (chat : Fields) : Except PyError Fields :=
  match getFieldD chat "history" (.obj []) with
  | .obj history =>
    match (getFieldD history "messages" (.obj [])).orElse (.obj []) with
    | .obj messages => .ok messages
    | _ => .error .typeError
  | _ => .error .attributeError

def missingMessage (history_messages : Fields) (message_id : Json) : Option (String × Json) :=
  message_id.str?.bind (fun id => (history_messages.lookup id).map (fun message => (id, message)))

def jsonMap (messages_map : Dict String Fields) : MessagesMap :=
  messages_map.mapValue (fun _ message => .obj message)

/-- The map returned, and the messages handed to the backfill of the rows. -/
structure FoundMessages where
  messages_map : Option MessagesMap
  backfilled : Fields

def get_messages_map_by_chat_id (id : String) (rows : List ChatMessage) (chat : Option Fields) :
    Except PyError FoundMessages :=
  match ChatMessages.get_messages_map_by_chat_id id rows with
  | some messages_map => do
    let unresolved_ids ← get_unresolved_parent_ids messages_map
    match unresolved_ids, chat with
    | [], _ => .ok ⟨some (jsonMap messages_map), []⟩
    | _, none => .ok ⟨some (jsonMap messages_map), []⟩
    | _, some chat =>
      let history_messages ← historyMessages chat
      let missing_messages := unresolved_ids.filterMap (missingMessage history_messages)
      .ok ⟨some ((jsonMap messages_map).merge (Dict.ofEntries missing_messages)), missing_messages⟩
  | none =>
    match chat with
    | none => .ok ⟨none, []⟩
    | some chat => do
      let history_messages ← historyMessages chat
      .ok ⟨some (Dict.ofEntries history_messages), history_messages⟩

/-- A parent that is named by a message of the map but is not in it. -/
def Unresolved (messages_map : Dict String Fields) (id : String) : Prop :=
  id ≠ "" ∧ id ∉ messages_map.keys ∧ ∃ child, (links messages_map).parent child = some id

theorem get_unresolved_parent_ids_ok {messages_map : Dict String Fields}
    (typed : ∀ id message, messages_map.get? id = some message →
      getField message "parentId" = .null ∨ (linkParent message).isSome = true) :
    ∃ ids, get_unresolved_parent_ids messages_map = .ok ids ∧
      ∀ value, value ∈ ids ↔ ∃ id, value = .str id ∧ Unresolved messages_map id := by
  let named (message : Fields) : Option Json :=
    (linkParent message).bind (fun id =>
      if id ≠ "" ∧ id ∉ messages_map.keys then some (.str id) else none)
  have each : ∀ entry ∈ messages_map.entries,
      unresolvedParent messages_map entry.2 = .ok (named entry.2) := by
    intro entry member
    rcases typed entry.1 entry.2 (Dict.mem_entries_iff.mp member) with null | text
    · simp [unresolvedParent, named, linkParent, null, Json.str?]
    · obtain ⟨id, parent⟩ := Option.isSome_iff_exists.mp text
      have field := linkParent_eq_some.mp parent
      by_cases empty : id = ""
      · simp [unresolvedParent, named, parent, field, empty]
      · by_cases present : id ∈ messages_map.keys
        · simp [unresolvedParent, named, parent, field, empty, present, bind, Except.bind]
        · simp [unresolvedParent, named, parent, field, empty, present, bind, Except.bind]
  refine ⟨_, by rw [get_unresolved_parent_ids, mapM_ok each]; rfl, ?_⟩
  intro value
  simp only [List.mem_eraseDups, List.mem_filterMap, List.mem_map, id_eq]
  constructor
  · rintro ⟨_, ⟨entry, member, rfl⟩, found⟩
    obtain ⟨id, parent, inside⟩ := Option.bind_eq_some_iff.mp found
    split at inside
    · rename_i absent
      refine ⟨id, (Option.some.inj inside).symm, absent.1, absent.2, entry.1, ?_⟩
      rw [links_parent (Dict.mem_entries_iff.mp member), parent]
    · cases inside
  · rintro ⟨id, rfl, nonempty, absent, child, parent⟩
    obtain ⟨message, found, named'⟩ := Option.bind_eq_some_iff.mp parent
    refine ⟨_, ⟨(child, message), Dict.mem_entries_iff.mpr found, rfl⟩, ?_⟩
    simp [named, named', nonempty, absent]

theorem missing_lookup (history_messages : Fields) (ids : List Json) (id : String) :
    (ids.filterMap (missingMessage history_messages)).lookup id =
      if .str id ∈ ids then history_messages.lookup id else none := by
  induction ids with
  | nil => rfl
  | cons first rest ih =>
    rw [List.filterMap_cons]
    cases first with
    | str other =>
      cases found : history_messages.lookup other with
      | none =>
        simp only [missingMessage, Json.str?, Option.bind_some, found, Option.map_none, ih]
        by_cases same : id = other
        · subst same
          simp [found]
        · simp [same]
      | some message =>
        simp only [missingMessage, Json.str?, Option.bind_some, found, Option.map_some,
          Assoc.lookup_cons_self_or, ih]
        by_cases same : other = id
        · subst same
          simp [found]
        · simp [same, Ne.symm same]
    | _ => simpa [missingMessage, Json.str?] using ih

def embedded (chat : Option Fields) : Except PyError Fields :=
  match chat with
  | none => .ok []
  | some chat => historyMessages chat

/-- The map is that of the rows with the unresolved parents filled in. -/
structure Enriched (rows : Dict String Fields) (legacy : Fields) (map : MessagesMap) : Prop where
  filled : ∀ id, Unresolved rows id → map.get? id = legacy.lookup id
  rest : ∀ id, ¬ Unresolved rows id → map.get? id = (jsonMap rows).get? id

def rowsMap (id : String) (rows : List ChatMessage) : Dict String Fields :=
  listChildren (rowMessages id rows)

theorem rowsMap_parent (id : String) (rows : List ChatMessage) (message_id : String) :
    (links (rowsMap id rows)).parent message_id =
      (rowOf id rows message_id).bind (fun row => row.parent_id) := by
  have field := congrArg (fun value => value.bind Json.str?)
    (listChildren_field id rows message_id "parentId" (by decide))
  simp only [Option.bind_map, Function.comp_def, rowMessage_parentId] at field
  refine field.trans ?_
  congr 1
  funext row
  cases row.parent_id <;> rfl

theorem rowsMap_mem {id : String} {rows : List ChatMessage} {message_id : String} :
    message_id ∈ (rowsMap id rows).keys ↔ (rowOf id rows message_id).isSome = true := by
  have field := congrArg Option.isSome
    (listChildren_field id rows message_id "parentId" (by decide))
  simp only [Option.isSome_map] at field
  rw [← Dict.get?_isSome, rowsMap, field]

theorem rowsMap_typed (id : String) (rows : List ChatMessage) (message_id : String)
    (message : Fields) (found : (rowsMap id rows).get? message_id = some message) :
    getField message "parentId" = .null ∨ (linkParent message).isSome = true := by
  have field := listChildren_field id rows message_id "parentId" (by decide)
  rw [rowsMap] at found
  rw [found, Option.map_some] at field
  obtain ⟨row, _, same⟩ := Option.map_eq_some_iff.mp field.symm
  rw [rowMessage_parentId] at same
  cases parent : row.parent_id with
  | none => exact .inl (by rw [← same, parent]; rfl)
  | some above => exact .inr (by rw [linkParent, ← same, parent]; rfl)

theorem get_messages_map_enriched (id : String) {rows : List ChatMessage} {chat : Option Fields}
    {legacy : Fields} (some_rows : rows ≠ []) (read : embedded chat = .ok legacy) :
    ∃ result map, get_messages_map_by_chat_id id rows chat = .ok result ∧
      result.messages_map = some map ∧ Enriched (rowsMap id rows) legacy map := by
  obtain ⟨ids, unresolved, named⟩ := get_unresolved_parent_ids_ok (rowsMap_typed id rows)
  have rowsRead : ChatMessages.get_messages_map_by_chat_id id rows = some (rowsMap id rows) := by
    simp [ChatMessages.get_messages_map_by_chat_id, some_rows, rowsMap]
  have outside : ∀ other, Unresolved (rowsMap id rows) other →
      (jsonMap (rowsMap id rows)).get? other = none := by
    intro other missing
    simp [jsonMap, Dict.get?_eq_none.mpr missing.2.1]
  -- Without missing messages the map of the rows is returned as it is.
  have unchanged : (∀ other, Unresolved (rowsMap id rows) other → legacy.lookup other = none) →
      Enriched (rowsMap id rows) legacy (jsonMap (rowsMap id rows)) := fun nothing =>
    ⟨fun other missing => by rw [outside other missing, nothing other missing], fun _ _ => rfl⟩
  simp only [get_messages_map_by_chat_id, rowsRead, unresolved, bind, Except.bind]
  cases ids with
  | nil =>
    refine ⟨_, _, rfl, rfl, unchanged fun other missing => ?_⟩
    exact absurd ((named (.str other)).mpr ⟨other, rfl, missing⟩) (by simp)
  | cons first rest =>
    cases chat with
    | none =>
      refine ⟨_, _, rfl, rfl, unchanged fun other _ => ?_⟩
      rw [← Except.ok.inj read]
      rfl
    | some chat =>
      have history : historyMessages chat = .ok legacy := read
      simp only [history]
      refine ⟨_, _, rfl, rfl, ?_, ?_⟩
      · intro other missing
        have member := (named (.str other)).mpr ⟨other, rfl, missing⟩
        rw [Dict.get?_merge, outside other missing, Option.or_none, Dict.get?_ofEntries,
          missing_lookup, if_pos member]
      · intro other resolved
        have absent : .str other ∉ first :: rest := by
          intro member
          obtain ⟨same, equal, missing⟩ := (named _).mp member
          exact resolved (Json.str.inj equal ▸ missing)
        rw [Dict.get?_merge, Dict.get?_ofEntries, missing_lookup, if_neg absent, Option.none_or]

/-- What the returned map promises: it has every parent the embedded history has,
and every branch in it is as long as in the union of rows and history. -/
structure Healed (rows : Dict String Fields) (legacy : Fields) (map : MessagesMap) : Prop where
  resolved : ∀ id message, map.get? id = some (.obj message) →
    ∀ above, getField message "parentId" = .str above → above ≠ "" →
      above ∉ map.keys → above ∉ Assoc.keys legacy
  branches : ∀ id ∈ map.keys, ∀ fuel, get_message_list fuel map id =
    get_message_list fuel ((Dict.ofEntries legacy).merge (jsonMap rows)) id

/-- A message that has no row, is the parent of one and is in the embedded history. -/
def Pulled (id : String) (rows : List ChatMessage) (legacy : Fields) (message_id : String) : Prop :=
  message_id ≠ "" ∧ rowOf id rows message_id = none ∧
    (∃ child, (rowOf id rows child).bind (fun row => row.parent_id) = some message_id) ∧
      message_id ∈ Assoc.keys legacy

/-- No two consecutive ancestors of a row are missing from the rows: the parent of
a message that is pulled in has a row, is pulled in too, or is nowhere. -/
def GapsOfOne (id : String) (rows : List ChatMessage) (legacy : Fields) : Prop :=
  ∀ message_id, Pulled id rows legacy message_id →
    ∀ message, legacy.lookup message_id = some (.obj message) →
      ∀ above, getField message "parentId" = .str above → above ≠ "" →
        above ∈ Assoc.keys legacy →
          (rowOf id rows above).isSome = true ∨ Pulled id rows legacy above

theorem pulled_iff {id : String} {rows : List ChatMessage} {legacy : Fields} {message_id : String} :
    Pulled id rows legacy message_id ↔
      Unresolved (rowsMap id rows) message_id ∧ message_id ∈ Assoc.keys legacy := by
  simp only [Pulled, Unresolved, rowsMap_mem, rowsMap_parent, Option.isSome_iff_ne_none, not_not,
    and_assoc]

section Enriched

variable {id : String} {rows : List ChatMessage} {legacy : Fields} {map : MessagesMap}

theorem Enriched.mem_iff (enriched : Enriched (rowsMap id rows) legacy map) {message_id : String} :
    message_id ∈ map.keys ↔
      (rowOf id rows message_id).isSome = true ∨ Pulled id rows legacy message_id := by
  rw [← Dict.get?_isSome, pulled_iff, ← rowsMap_mem]
  by_cases missing : Unresolved (rowsMap id rows) message_id
  · rw [enriched.filled message_id missing, Assoc.lookup_isSome]
    simp [missing, missing.2.1]
  · rw [enriched.rest message_id missing, Dict.get?_isSome]
    simp [missing, jsonMap]

theorem Enriched.resolved_iff (enriched : Enriched (rowsMap id rows) legacy map) :
    (∀ message_id message, map.get? message_id = some (.obj message) →
      ∀ above, getField message "parentId" = .str above → above ≠ "" →
        above ∉ map.keys → above ∉ Assoc.keys legacy) ↔ GapsOfOne id rows legacy := by
  constructor
  · intro resolved message_id pulled message stored above named nonempty known
    have found := (enriched.filled message_id (pulled_iff.mp pulled).1).trans stored
    apply enriched.mem_iff.mp
    apply Classical.byContradiction
    intro absent
    exact resolved message_id message found above named nonempty absent known
  · intro gaps message_id message found above named nonempty absent known
    apply absent
    apply enriched.mem_iff.mpr
    by_cases missing : Unresolved (rowsMap id rows) message_id
    · rw [enriched.filled message_id missing] at found
      have pulled := pulled_iff.mpr ⟨missing, Assoc.mem_keys_of_lookup found⟩
      exact gaps message_id pulled message found above named nonempty known
    · rw [enriched.rest message_id missing, jsonMap, Dict.get?_mapValue] at found
      obtain ⟨stored, row, same⟩ := Option.map_eq_some_iff.mp found
      cases same
      by_cases present : above ∈ (rowsMap id rows).keys
      · exact .inl (rowsMap_mem.mp present)
      · right
        apply pulled_iff.mpr
        refine ⟨⟨nonempty, present, message_id, ?_⟩, known⟩
        rw [links_parent row, linkParent_eq_some.mpr named]

theorem Enriched.closedIn (enriched : Enriched (rowsMap id rows) legacy map)
    (gaps : GapsOfOne id rows legacy) :
    ClosedIn map ((Dict.ofEntries legacy).merge (jsonMap (rowsMap id rows))) where
  agree := by
    intro message_id message found
    rw [Dict.get?_merge, Dict.get?_ofEntries]
    by_cases missing : Unresolved (rowsMap id rows) message_id
    · rw [enriched.filled message_id missing] at found
      simp [jsonMap, Dict.get?_eq_none.mpr missing.2.1, found]
    · rw [enriched.rest message_id missing] at found
      simp [found]
  parents := by
    intro message_id message found above named nonempty member
    rcases Dict.mem_keys_merge.mp member with known | row
    · apply Classical.byContradiction
      intro absent
      refine enriched.resolved_iff.mpr gaps message_id message found above named nonempty absent ?_
      rw [← Dict.get?_isSome, Dict.get?_ofEntries, Assoc.lookup_isSome] at known
      exact known
    · apply enriched.mem_iff.mpr
      rw [jsonMap, Dict.keys_mapValue] at row
      exact .inl (rowsMap_mem.mp row)

theorem Enriched.healed_iff (enriched : Enriched (rowsMap id rows) legacy map) :
    Healed (rowsMap id rows) legacy map ↔ GapsOfOne id rows legacy :=
  ⟨fun healed => enriched.resolved_iff.mp healed.resolved, fun gaps =>
    ⟨enriched.resolved_iff.mpr gaps,
      fun _ member fuel => (enriched.closedIn gaps).get_message_list_eq fuel member⟩⟩

end Enriched

theorem healed_legacy (id : String) (legacy : Fields) :
    Healed (rowsMap id []) legacy (Dict.ofEntries legacy) := by
  have same : ∀ query, ((Dict.ofEntries legacy).merge (jsonMap (rowsMap id []))).get? query =
      (Dict.ofEntries legacy).get? query := by
    intro query
    rw [Dict.get?_merge]
    rfl
  have members : ∀ query, query ∈ ((Dict.ofEntries legacy).merge (jsonMap (rowsMap id []))).keys ↔
      query ∈ (Dict.ofEntries legacy).keys := by
    intro query
    rw [← Dict.get?_isSome, same, Dict.get?_isSome]
  constructor
  · intro message_id message found above named nonempty absent known
    apply absent
    rw [← Dict.get?_isSome, Dict.get?_ofEntries, Assoc.lookup_isSome]
    exact known
  · intro message_id member fuel
    have closed : ClosedIn (Dict.ofEntries legacy)
        ((Dict.ofEntries legacy).merge (jsonMap (rowsMap id []))) :=
      ⟨fun query message found => (same query).trans found,
        fun _ _ _ above _ _ member => (members above).mp member⟩
    exact closed.get_message_list_eq fuel member

def lastRow : List ChatMessage :=
  [{ id := "chat-c", chat_id := "chat", role := "user", parent_id := some "b" }]

def embeddedThree : Fields :=
  [("a", .obj [("id", .str "a"), ("parentId", .null)]),
    ("b", .obj [("id", .str "b"), ("parentId", .str "a")]),
    ("c", .obj [("id", .str "c"), ("parentId", .str "b")])]

def chatThree : Fields := [("history", .obj [("messages", .obj embeddedThree)])]

end OpenWebui.Chats
