import OpenWebui.Base.ParentLinks
import OpenWebui.Chats.DeleteMessage

/-! `Chats.upsert_message_to_history`: a message is merged into the one stored
under its id, or inserted with its parent, role and timestamp filled in. -/

namespace OpenWebui.Chats

/-- The first message that lists `message_id` as a child. -/
def findParent (message_id : String) : List (String × Fields) → Except PyError Json
  | [] => .ok .null
  | (existing_id, existing_message) :: rest => do
    if ← (getFieldD existing_message "childrenIds" (.arr [])).contains message_id then
      .ok (.str existing_id)
    else findParent message_id rest

def insertedParent (messages : Messages) (message_id : String) (message : Fields) :
    Except PyError Json :=
  if getField message "parentId" = .null then findParent message_id messages.entries
  else .ok (getField message "parentId")

def itemRole (item : Json) : Option Json :=
  item.obj?.bind (fun fields =>
    if (getField fields "role").truthy then some (getField fields "role") else none)

/-- The first role among the items of `message.get('output') or []`. -/
def outputRole (message : Fields) : Except PyError Json := do
  let output ← ((getField message "output").orElse (.arr [])).iterate
  .ok ((output.findSome? itemRole).getD .null)

def parentMessage (messages : Messages) (parent_id : Json) : Except PyError (Option Fields) :=
  if parent_id.truthy then messages.getJson? parent_id else .ok none

def answeringRole (parent : Option Fields) : Json :=
  let parent_role := getField (parent.getD []) "role"
  if parent_role = .str "user" then .str "assistant"
  else if parent_role = .str "assistant" then .str "user"
  else .str "assistant"

def insertedRole (message : Fields) (output_role : Json) (parent : Option Fields) : Json :=
  let role := (getField message "role").orElse output_role
  if role.truthy then role else answeringRole parent

def listOrEmpty : Json → Json
  | .arr items => .arr items
  | _ => .arr []

def insertedMessage (now : Int) (message_id : String) (message : Fields) (parent_id role : Json) :
    Fields :=
  let parentId := if getField message "parentId" ≠ .null then getField message "parentId" else parent_id
  Assoc.merge message [
    ("id", (getField message "id").orElse (.str message_id)),
    ("parentId", parentId),
    ("childrenIds", listOrEmpty (getField message "childrenIds")),
    ("role", role),
    ("timestamp", (getField message "timestamp").orElse (.num now))]

/-- The history left behind and the message stored under `message_id`. -/
def upsert_message_to_history (now : Int) (history : History) (message_id : String)
    (message : Fields) : Except PyError (History × Fields) := do
  let stored ← match history.messages.get? message_id with
    | some existing => .ok (Assoc.merge existing message)
    | none => do
      let parent_id ← insertedParent history.messages message_id message
      let parent ← parentMessage history.messages parent_id
      let output_role ← outputRole message
      .ok (insertedMessage now message_id message parent_id
        (insertedRole message output_role parent))
  .ok ({ history with
    messages := history.messages.set message_id stored
    currentId := .str message_id }, stored)

/-- The payload names no parent, or one that is a message. -/
def ParentKnown (messages : Messages) (message : Fields) : Prop :=
  getField message "parentId" = .null ∨
    ∃ parent ∈ messages.keys, getField message "parentId" = .str parent

/-- A new message names no parent and no children; a stored one is sent the
parent and the children it already has, or neither. -/
def KeepsLinks (messages : Messages) (message_id : String) (message : Fields) : Prop :=
  match messages.get? message_id with
  | none =>
    getField message "parentId" = .null ∧
      listOrEmpty (getField message "childrenIds") = .arr [] ∧
      ∃ output, ((getField message "output").orElse (.arr [])).iterate = .ok output
  | some existing =>
    (message.lookup "parentId" = none ∨ linkParent message = linkParent existing) ∧
      (message.lookup "childrenIds" = none ∨ ∃ ids : List String,
        message.lookup "childrenIds" = some (.arr (ids.map Json.str)) ∧
          ∀ child, child ∈ ids ↔ child ∈ linkChildren existing)

/-- What an upsert promises: typed, mirrored and acyclic links, the new message
current, and every other message unchanged up to its child list. -/
structure Upserted (before : History) (message_id : String) (result : History × Fields) : Prop where
  typed : ∀ entry ∈ result.1.messages.entries, linksTyped entry.2 = true
  consistent : (links result.1.messages).Consistent
  currentId : result.1.currentId = .str message_id
  stored : result.1.messages.get? message_id = some result.2
  kept : ∀ id, id ≠ message_id → ∀ old, before.messages.get? id = some old →
    ∃ new, result.1.messages.get? id = some new ∧
      ∀ field, field ≠ "childrenIds" → new.lookup field = old.lookup field

theorem WellFormed.findParent_eq {messages : Messages} (wellFormed : WellFormed messages)
    {message_id : String} (absent : message_id ∉ messages.keys) :
    findParent message_id messages.entries = .ok .null := by
  have unlisted : ∀ entry ∈ messages.entries,
      (getFieldD entry.2 "childrenIds" (.arr [])).contains message_id = .ok false := by
    intro entry member
    have found := Dict.mem_entries_iff.mp member
    have present := Dict.mem_keys_of_get? found
    have missing : message_id ∉ linkChildren entry.2 := by
      intro listed
      rw [← links_children found] at listed
      exact absent ((wellFormed.forest.mirrored.listed _ present _).mp listed).1
    rcases childField_of_typed (wellFormed.typed entry member) with ⟨unset, _⟩ | stored
    · simp [getFieldD, unset, Json.contains]
    · simp [getFieldD, stored, Json.contains, missing]
  generalize messages.entries = entries at unlisted
  induction entries with
  | nil => rfl
  | cons entry rest ih =>
    rw [findParent, unlisted entry (by simp)]
    exact ih fun other member => unlisted other (by simp [member])

theorem ParentKnown.parentMessage_ok {messages : Messages} {message : Fields}
    (known : ParentKnown messages message) :
    ∃ parent, parentMessage messages (getField message "parentId") = .ok parent := by
  rcases known with null | ⟨parent, _, named⟩
  · exact ⟨none, by simp [parentMessage, null]⟩
  · unfold parentMessage
    rw [named]
    split
    · exact ⟨_, rfl⟩
    · exact ⟨_, rfl⟩

section Stored

variable {messages : Messages} {message_id : String} {message : Fields}

theorem WellFormed.set_consistent_iff (wellFormed : WellFormed messages) :
    (links (messages.set message_id message)).Consistent ↔
      (∀ above, linkParent message = some above ↔ (links messages).Edge message_id above) ∧
        ∀ child, child ∈ linkChildren message ↔ (links messages).Edge child message_id := by
  have found : (messages.set message_id message).get? message_id = some message := by simp
  rw [← links_parent found, ← links_children found]
  refine wellFormed.forest.relink_consistent_iff (fun query => Dict.mem_keys_set) ?_ ?_
  · intro query different
    simp [links, Ne.symm different]
  · intro query different
    simp [links, Ne.symm different]

theorem WellFormed.set_typed_iff (wellFormed : WellFormed messages) :
    (∀ entry ∈ (messages.set message_id message).entries, linksTyped entry.2 = true) ↔
      linksTyped message = true := by
  constructor
  · intro typed
    exact typed (message_id, message) (Dict.mem_entries_iff.mpr (by simp))
  · intro typed entry member
    have found := Dict.mem_entries_iff.mp member
    rw [Dict.get?_set] at found
    split at found
    · exact Option.some.inj found ▸ typed
    · exact wellFormed.typed_of_get? found

theorem WellFormed.upserted_iff {history : History} (wellFormed : WellFormed history.messages) :
    Upserted history message_id
        ({ history with
          messages := history.messages.set message_id message
          currentId := .str message_id }, message) ↔
      linksTyped message = true ∧
        (∀ above, linkParent message = some above ↔ (links history.messages).Edge message_id above) ∧
          ∀ child, child ∈ linkChildren message ↔ (links history.messages).Edge child message_id := by
  constructor
  · intro upserted
    exact ⟨wellFormed.set_typed_iff.mp upserted.typed,
      wellFormed.set_consistent_iff.mp upserted.consistent⟩
  · rintro ⟨typed, edges⟩
    refine ⟨wellFormed.set_typed_iff.mpr typed, wellFormed.set_consistent_iff.mpr edges, rfl,
      by simp, ?_⟩
    intro id different old found
    exact ⟨old, by simp [Ne.symm different, found], fun _ _ => rfl⟩

theorem WellFormed.edge_absent (wellFormed : WellFormed messages)
    (absent : message_id ∉ messages.keys) (child : String) :
    ¬ (links messages).Edge child message_id :=
  fun edge => absent (wellFormed.forest.closed child message_id edge)

theorem unlinked_iff (typedChildren : ∃ items, message.lookup "childrenIds" = some (.arr items)) :
    (linksTyped message = true ∧ linkParent message = none ∧ linkChildren message = []) ↔
      getField message "parentId" = .null ∧ message.lookup "childrenIds" = some (.arr []) := by
  constructor
  · rintro ⟨typed, parent, children⟩
    refine ⟨by simpa [parent] using parentField_of_typed typed, ?_⟩
    rcases childField_of_typed typed with ⟨unset, _⟩ | stored
    · obtain ⟨items, stored⟩ := typedChildren
      simp [unset] at stored
    · simpa [children] using stored
  · rintro ⟨null, stored⟩
    simp [linksTyped, linkParent, linkChildren, null, stored, Json.str?]

end Stored

section Insert

variable (now : Int) {history : History} {message_id : String} {message : Fields}

theorem inserted_parentId (parent_id role : Json)
    (same : getField message "parentId" = .null → parent_id = .null) :
    getField (insertedMessage now message_id message parent_id role) "parentId" =
      getField message "parentId" := by
  by_cases null : getField message "parentId" = .null
  · simp [insertedMessage, getField_merge, Assoc.lookup_cons_self_or, null, same null]
  · simp [insertedMessage, getField_merge, Assoc.lookup_cons_self_or, null]

theorem inserted_childrenIds (message_id : String) (message : Fields) (parent_id role : Json) :
    (insertedMessage now message_id message parent_id role).lookup "childrenIds" =
      some (listOrEmpty (getField message "childrenIds")) := by
  simp [insertedMessage, Assoc.lookup_cons_self_or]

theorem listOrEmpty_arr (value : Json) : ∃ items, listOrEmpty value = .arr items := by
  cases value with
  | arr items => exact ⟨items, rfl⟩
  | _ => exact ⟨[], rfl⟩

theorem WellFormed.insert_eq (wellFormed : WellFormed history.messages)
    (absent : message_id ∉ history.messages.keys)
    (known : ParentKnown history.messages message) :
    ∃ parent, upsert_message_to_history now history message_id message =
      (outputRole message).map (fun output_role =>
        let stored := insertedMessage now message_id message (getField message "parentId")
          (insertedRole message output_role parent)
        ({ history with
          messages := history.messages.set message_id stored
          currentId := .str message_id }, stored)) := by
  obtain ⟨parent, read⟩ := known.parentMessage_ok
  have parent_id : insertedParent history.messages message_id message =
      .ok (getField message "parentId") := by
    by_cases null : getField message "parentId" = .null
    · rw [insertedParent, if_pos null, wellFormed.findParent_eq absent, null]
    · rw [insertedParent, if_neg null]
  refine ⟨parent, ?_⟩
  simp only [upsert_message_to_history, Dict.get?_eq_none.mpr absent, parent_id, bind, Except.bind,
    read]
  cases outputRole message <;> rfl

theorem WellFormed.insert_iff (wellFormed : WellFormed history.messages)
    (absent : message_id ∉ history.messages.keys)
    (known : ParentKnown history.messages message) :
    (∃ result, upsert_message_to_history now history message_id message = .ok result ∧
        Upserted history message_id result) ↔
      KeepsLinks history.messages message_id message := by
  have noParent : ∀ above, ¬ (links history.messages).Edge message_id above :=
    fun above edge => absent edge.1
  have noChild := wellFormed.edge_absent absent
  -- The stored links are those of the payload, whatever role was found.
  have stored (role : Json) :
      Upserted history message_id
          ({ history with
            messages := history.messages.set message_id (insertedMessage now message_id message
              (getField message "parentId") role)
            currentId := .str message_id },
            insertedMessage now message_id message (getField message "parentId") role) ↔
        getField message "parentId" = .null ∧
          listOrEmpty (getField message "childrenIds") = .arr [] := by
    have children := inserted_childrenIds now message_id message (getField message "parentId") role
    obtain ⟨items, list⟩ := listOrEmpty_arr (getField message "childrenIds")
    rw [wellFormed.upserted_iff]
    simp only [noParent, noChild, iff_false]
    rw [← Option.eq_none_iff_forall_ne_some, ← List.eq_nil_iff_forall_not_mem,
      unlinked_iff ⟨items, children.trans (by rw [list])⟩,
      inserted_parentId now _ _ (fun null => null), children, Option.some_inj]
  obtain ⟨parent, run⟩ := wellFormed.insert_eq now absent known
  simp only [KeepsLinks, Dict.get?_eq_none.mpr absent]
  constructor
  · rintro ⟨result, returned, upserted⟩
    rw [run] at returned
    cases read : ((getField message "output").orElse (.arr [])).iterate with
    | error error => simp [outputRole, read, bind, Except.bind, Except.map] at returned
    | ok output =>
      simp only [outputRole, read, bind, Except.bind, Except.map, Except.ok.injEq] at returned
      rw [← returned, stored] at upserted
      exact ⟨upserted.1, upserted.2, output, rfl⟩
  · rintro ⟨null, empty, output, read⟩
    rw [run]
    simp only [outputRole, read, bind, Except.bind, Except.map]
    exact ⟨_, rfl, (stored _).mpr ⟨null, empty⟩⟩

end Insert

section Update

variable (now : Int) {history : History} {message_id : String} {message existing : Fields}

theorem update_eq (found : history.messages.get? message_id = some existing) :
    upsert_message_to_history now history message_id message =
      .ok ({ history with
        messages := history.messages.set message_id (Assoc.merge existing message)
        currentId := .str message_id }, Assoc.merge existing message) := by
  simp [upsert_message_to_history, found, bind, Except.bind]

theorem linkParent_merge : linkParent (Assoc.merge existing message) =
    if message.lookup "parentId" = none then linkParent existing else linkParent message := by
  unfold linkParent getField
  rw [Assoc.lookup_merge]
  cases message.lookup "parentId" <;> rfl

theorem linkChildren_merge : linkChildren (Assoc.merge existing message) =
    if message.lookup "childrenIds" = none then linkChildren existing else linkChildren message := by
  unfold linkChildren
  rw [Assoc.lookup_merge]
  cases message.lookup "childrenIds" <;> rfl

theorem linksTyped_merge (typed : linksTyped existing = true)
    (parent : getField message "parentId" = .null ∨ (linkParent message).isSome = true) :
    linksTyped (Assoc.merge existing message) = true ↔
      message.lookup "childrenIds" = none ∨
        ∃ ids : List String, message.lookup "childrenIds" = some (.arr (ids.map Json.str)) := by
  have parentTyped : (getField (Assoc.merge existing message) "parentId" == .null ||
      (linkParent (Assoc.merge existing message)).isSome) = true := by
    rw [linkParent_merge, getField_merge]
    cases sent : message.lookup "parentId" with
    | none =>
      simp only [linksTyped, Bool.and_eq_true] at typed
      simpa [getField] using typed.1
    | some value => simpa [getField_of_lookup sent] using parent
  constructor
  · intro merged
    rcases childField_of_typed merged with ⟨unset, _⟩ | stored
    · rw [Assoc.lookup_merge] at unset
      exact .inl (Option.or_eq_none_iff.mp unset).1
    · rw [Assoc.lookup_merge] at stored
      cases sent : message.lookup "childrenIds" with
      | none => exact .inl rfl
      | some value => exact .inr ⟨_, by simpa [sent] using stored⟩
  · rintro (unset | ⟨ids, sent⟩)
    · simp only [linksTyped, Bool.and_eq_true] at typed ⊢
      exact ⟨parentTyped, by simpa [unset] using typed.2⟩
    · simp only [linksTyped, Bool.and_eq_true]
      exact ⟨parentTyped, by simp [sent, Json.str?]⟩

theorem WellFormed.update_iff (wellFormed : WellFormed history.messages)
    (found : history.messages.get? message_id = some existing)
    (known : ParentKnown history.messages message) :
    (∃ result, upsert_message_to_history now history message_id message = .ok result ∧
        Upserted history message_id result) ↔
      KeepsLinks history.messages message_id message := by
  have member := Dict.mem_keys_of_get? found
  have parents : ∀ above, (links history.messages).Edge message_id above ↔
      linkParent existing = some above := by
    intro above
    rw [← links_parent found]
    exact and_iff_right member
  have children : ∀ child, (links history.messages).Edge child message_id ↔
      child ∈ linkChildren existing := by
    intro child
    rw [← links_children found]
    exact (wellFormed.forest.mirrored.listed message_id member child).symm
  have parentTyped : getField message "parentId" = .null ∨ (linkParent message).isSome = true := by
    rcases known with null | ⟨parent, _, named⟩
    · exact .inl null
    · exact .inr (by rw [linkParent_eq_some.mpr named]; rfl)
  rw [update_eq now found]
  simp only [Except.ok.injEq, exists_eq_left', wellFormed.upserted_iff, parents, children,
    linksTyped_merge (wellFormed.typed_of_get? found) parentTyped, linkParent_merge,
    linkChildren_merge, KeepsLinks, found, ← Option.ext_iff]
  rw [and_left_comm]
  refine and_congr ?_ ?_
  · cases message.lookup "parentId" <;> simp
  · cases sent : message.lookup "childrenIds" with
    | none => simp
    | some value =>
      simp only [reduceCtorEq, false_or, if_false]
      constructor
      · rintro ⟨⟨ids, list⟩, same⟩
        rw [linkChildren_of_list (sent.trans list)] at same
        exact ⟨ids, list, same⟩
      · rintro ⟨ids, list, same⟩
        rw [linkChildren_of_list (sent.trans list)]
        exact ⟨⟨ids, list⟩, same⟩

end Update

/-- An upsert keeps the tree consistent exactly when it moves no link: neither
path touches the child list of the parent. -/
theorem upsert_message_to_history_iff (now : Int) (history : History) (message_id : String)
    (message : Fields) (wellFormed : WellFormed history.messages)
    (known : ParentKnown history.messages message) :
    (∃ result, upsert_message_to_history now history message_id message = .ok result ∧
        Upserted history message_id result) ↔
      KeepsLinks history.messages message_id message := by
  cases found : history.messages.get? message_id with
  | none => exact wellFormed.insert_iff now (Dict.get?_eq_none.mp found) known
  | some existing => exact wellFormed.update_iff now found known

def question : History where
  messages := Dict.ofEntries
    [("a", [("id", .str "a"), ("parentId", .null), ("childrenIds", .arr []), ("role", .str "user")])]
  currentId := .str "a"
  fields := Dict.empty

def answer : Fields := [("parentId", .str "a"), ("content", .str "hello")]

theorem question_update :
    (∃ result, upsert_message_to_history 0 question "a" [("content", .str "edited")] = .ok result ∧
        Upserted question "a" result) ↔
      KeepsLinks question.messages "a" [("content", .str "edited")] :=
  upsert_message_to_history_iff 0 question "a" _ (by decide) (.inl rfl)

/-- The answer is stored but not listed by the question, and deleting the
question leaves it under a parent that is gone. -/
theorem question_answer :
    WellFormed question.messages ∧ ParentKnown question.messages answer ∧
      ∃ result, upsert_message_to_history 0 question "b" answer = .ok result ∧
        (links result.1.messages).parent "b" = some "a" ∧
        (links result.1.messages).children "a" = [] ∧ ¬ Upserted question "b" result ∧
        ∃ left, delete_message_from_history 2 result.1 "a" = .ok (["a"], left) ∧
          (links left.messages).parent "b" = some "a" ∧ left.messages.keys = ["b"] ∧
          left.currentId = .null := by
  refine ⟨by decide, .inr ⟨"a", by decide, rfl⟩, _, rfl, by decide, by decide, fun upserted => ?_,
    _, rfl, by decide, by decide, rfl⟩
  have listed := (upserted.consistent.listed "b" "a" (by decide)).2
  exact absurd listed (by decide)

end OpenWebui.Chats
