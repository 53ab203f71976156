import OpenWebui.Base.Json

/-! `get_message_list`: the branch from a message back to its root, read from a message map by
following `parentId`. -/

namespace OpenWebui.Utils

abbrev MessagesMap := Dict String Json

/-- `messages_map.get(parent_id) if parent_id else None`. -/
def parentMessage (messages_map : MessagesMap) (parent_id : Json) : Except PyError Json :=
  if parent_id.truthy then (messages_map.getJson? parent_id).map (fun found => found.getD .null)
  else .ok .null

/-- The messages from the current one upwards, for at most `fuel` rounds. A
message without an id is not remembered as visited. -/
def walkParents (messages_map : MessagesMap) :
    Nat → Json → List Json → Except PyError (List Fields)
  | 0, current_message, _ => if current_message.truthy then .error .diverges else .ok []
  | fuel + 1, current_message, visited_message_ids =>
    if current_message.truthy then
      match current_message with
      | .obj message =>
        let message_id := getField message "id"
        if message_id.hashable then
          if message_id ∈ visited_message_ids then .ok []
          else do
            let parent ← parentMessage messages_map (getField message "parentId")
            let above ← walkParents messages_map fuel parent
              (if message_id = .null then visited_message_ids else message_id :: visited_message_ids)
            .ok (message :: above)
        else .error .typeError
      | _ => .error .attributeError
    else .ok []

def get_message_list (fuel : Nat) (messages_map : MessagesMap) (message_id : String) :
    Except PyError (List Fields) :=
  (walkParents messages_map fuel ((messages_map.get? message_id).getD .null) []).map List.reverse

/-- A map is closed in a larger one when the parent of each of its messages is in
it or nowhere. -/
structure ClosedIn (part whole : MessagesMap) : Prop where
  agree : ∀ id message, part.get? id = some message → whole.get? id = some message
  parents : ∀ id message, part.get? id = some (.obj message) →
    ∀ above, getField message "parentId" = .str above → above ≠ "" →
      above ∈ whole.keys → above ∈ part.keys

variable {part whole : MessagesMap}

theorem ClosedIn.get?_eq (closed : ClosedIn part whole) {id : String}
    (present : id ∈ whole.keys → id ∈ part.keys) : part.get? id = whole.get? id := by
  cases found : part.get? id with
  | some message => exact (closed.agree id message found).symm
  | none =>
    have absent : id ∉ whole.keys := fun member => Dict.get?_eq_none.mp found (present member)
    exact (Dict.get?_eq_none.mpr absent).symm

theorem ClosedIn.parentMessage_eq (closed : ClosedIn part whole) {id : String} {message : Fields}
    (found : part.get? id = some (.obj message)) :
    parentMessage part (getField message "parentId") =
      parentMessage whole (getField message "parentId") := by
  unfold parentMessage
  split
  · rename_i filled
    cases named : getField message "parentId" with
    | str above =>
      have nonempty : above ≠ "" := by simpa [named] using filled
      rw [Dict.getJson?_str, Dict.getJson?_str,
        closed.get?_eq (closed.parents id message found above named nonempty)]
    | _ => rfl
  · rfl

theorem parentMessage_mem {messages_map : MessagesMap} {parent_id found : Json}
    (read : parentMessage messages_map parent_id = .ok found) (filled : found.truthy = true) :
    ∃ id, messages_map.get? id = some found := by
  unfold parentMessage at read
  split at read
  · cases parent_id with
    | str id =>
      cases stored : messages_map.get? id with
      | none =>
        simp only [Dict.getJson?_str, stored, Except.map, Option.getD_none, Except.ok.injEq] at read
        simp [← read] at filled
      | some message =>
        simp only [Dict.getJson?_str, stored, Except.map, Option.getD_some, Except.ok.injEq] at read
        exact ⟨id, by rw [stored, read]⟩
    | arr _ => simp [Dict.getJson?, Except.map] at read
    | obj _ => simp [Dict.getJson?, Except.map] at read
    | _ =>
      simp only [Dict.getJson?, Except.map, Option.getD_none, Except.ok.injEq] at read
      simp [← read] at filled
  · rw [← Except.ok.inj read] at filled
    simp at filled

theorem ClosedIn.walkParents_eq (closed : ClosedIn part whole) (fuel : Nat) (current : Json)
    (inside : current.truthy = true → ∃ id, part.get? id = some current) (visited : List Json) :
    walkParents part fuel current visited = walkParents whole fuel current visited := by
  induction fuel generalizing current visited with
  | zero => rfl
  | succ fuel ih =>
    unfold walkParents
    split
    · rename_i filled
      obtain ⟨id, found⟩ := inside filled
      cases current with
      | obj message =>
        dsimp only
        rw [closed.parentMessage_eq found]
        cases read : parentMessage whole (getField message "parentId") with
        | error error => rfl
        | ok parent =>
          have below : parent.truthy = true → ∃ id, part.get? id = some parent :=
            parentMessage_mem (closed.parentMessage_eq found ▸ read)
          simp only [bind, Except.bind, ih parent below]
      | _ => rfl
    · rfl

theorem ClosedIn.get_message_list_eq (closed : ClosedIn part whole) (fuel : Nat) {id : String}
    (member : id ∈ part.keys) : get_message_list fuel part id = get_message_list fuel whole id := by
  obtain ⟨message, found⟩ := Dict.exists_of_mem_keys member
  simp only [get_message_list, found, closed.agree id message found, Option.getD_some]
  rw [closed.walkParents_eq fuel message (fun _ => ⟨id, found⟩)]

end OpenWebui.Utils

namespace OpenWebui.Utils

variable {messages_map : MessagesMap}

@[simp] theorem walkParents_null (messages_map : MessagesMap) (fuel : Nat) (visited : List Json) :
    walkParents messages_map fuel .null visited = .ok [] := by
  cases fuel <;> rfl

end OpenWebui.Utils
