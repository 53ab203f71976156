import OpenWebui.Base.Splice
import OpenWebui.Chats.MessagesMap

/-! `Chats.delete_message_from_history`: the deleted message and its children go, the grandchildren
move to the parent. -/

namespace OpenWebui.Chats

/-- `[id for id in ids if id in messages]`. -/
def presentIds (messages : Messages) : List Json → Except PyError (List String)
  | [] => .ok []
  | id :: rest => do
    let found ← messages.getJson? id
    let later ← presentIds messages rest
    match id, found with
    | .str text, some _ => .ok (text :: later)
    | _, _ => .ok later

/-- The ids in `message.get('childrenIds') or []` that are messages. -/
def presentChildren (messages : Messages) (message : Fields) : Except PyError (List String) := do
  let ids ← ((getField message "childrenIds").orElse (.arr [])).iterate
  presentIds messages ids

def attachGrandchildren (messages : Messages) (parent_id : Json) (message_id : String)
    (grandchild_ids : List String) : Except PyError Messages := do
  match parent_id, ← messages.getJson? parent_id with
  | .str id, some parent =>
    let child_ids ← ((getField parent "childrenIds").orElse (.arr [])).iterate
    let kept := child_ids.filter (fun child_id => decide (child_id ≠ .str message_id))
    .ok (messages.modify id (fun fields =>
      Assoc.set fields "childrenIds" (.arr (kept ++ grandchild_ids.map Json.str))))
  | _, _ => .ok messages

/-- `child_ids[-1]` of a non-empty value. -/
def lastItem : Json → Except PyError Json
  | .arr items => match items.getLast? with
    | some item => .ok item
    | none => .error .indexError
  | .str text => match text.toList.getLast? with
    | some char => .ok (.str (String.singleton char))
    | none => .error .indexError
  | .obj _ => .error .keyError
  | _ => .error .typeError

/-- The loop from `current_id` to its last child, for at most `fuel` rounds. -/
def descendToLeaf (messages : Messages) : Nat → Json → Json → Except PyError Json
  | 0, current_id, child_ids => if child_ids.truthy then .error .diverges else .ok current_id
  | fuel + 1, current_id, child_ids =>
    if child_ids.truthy then do
      let next ← lastItem child_ids
      let entry ← messages.getJson? next
      descendToLeaf messages fuel next (getFieldD (entry.getD []) "childrenIds" (.arr []))
    else .ok current_id

/-- The ids whose `parentId` is null, in map order. -/
def rootIds (messages : Messages) : List String :=
  (messages.entries.filter (fun entry => decide (getField entry.2 "parentId" = .null))).map Prod.fst

def descendFromParent (messages : Messages) (fuel : Nat) (parent_id : Json) :
    Except PyError Json := do
  let child_ids ← if parent_id = .null then .ok (.arr ((rootIds messages).map Json.str)) else do
    let entry ← messages.getJson? parent_id
    .ok (getFieldD (entry.getD []) "childrenIds" (.arr []))
  descendToLeaf messages fuel parent_id child_ids

def delete_message_from_history (fuel : Nat) (history : History) (message_id : String) :
    Except PyError (List String × History) :=
  match history.messages.get? message_id with
  | none => .ok ([], history)
  | some message => do
    let parent_id := getField message "parentId"
    let child_ids ← presentChildren history.messages message
    let grandchild_ids ← child_ids.mapM (fun child_id =>
      presentChildren history.messages ((history.messages.get? child_id).getD []))
    let attached ← attachGrandchildren history.messages parent_id message_id grandchild_ids.flatten
    let moved := grandchild_ids.flatten.foldl (fun messages grandchild_id =>
      messages.modify grandchild_id (fun fields => Assoc.set fields "parentId" parent_id)) attached
    let deleted_ids := message_id :: child_ids
    let messages := deleted_ids.foldl Dict.erase moved
    let current_id ← descendFromParent messages fuel parent_id
    let found ← messages.hasJson current_id
    .ok (deleted_ids, { history with
      messages := messages
      currentId := if found then current_id else .null })

variable {messages : Messages} {message_id : String} {message : Fields}

theorem presentIds_strings (messages : Messages) (ids : List String) :
    presentIds messages (ids.map Json.str) =
      .ok (ids.filter (fun id => decide (id ∈ messages.keys))) := by
  induction ids with
  | nil => rfl
  | cons id rest ih =>
    rw [List.map_cons, presentIds, ih]
    cases found : messages.get? id with
    | none =>
      have absent := Dict.get?_eq_none.mp found
      simp [found, absent, bind, Except.bind]
    | some value =>
      have present := Dict.mem_keys_of_get? found
      simp [found, present, bind, Except.bind]

theorem childIds_iterate (typed : linksTyped message = true) :
    ((getField message "childrenIds").orElse (.arr [])).iterate =
      .ok ((linkChildren message).map Json.str) := by
  rcases childField_of_typed typed with ⟨absent, none⟩ | stored
  · simp [getField, absent, none, Json.orElse, Json.iterate]
  · rw [getField_of_lookup stored, Json.orElse]
    split
    · rfl
    · rename_i empty
      have none : linkChildren message = [] := by simpa using empty
      simp [none, Json.iterate]

theorem WellFormed.presentChildren_eq (wellFormed : WellFormed messages)
    (found : messages.get? message_id = some message) :
    presentChildren messages message = .ok ((links messages).children message_id) := by
  have typed := wellFormed.typed_of_get? found
  have member := Dict.mem_keys_of_get? found
  have listed := wellFormed.forest.mirrored.listed message_id member
  simp only [presentChildren, childIds_iterate typed, bind, Except.bind, presentIds_strings]
  rw [← links_children found]
  congr 1
  apply List.filter_eq_self.mpr
  intro child present
  simpa using ((listed child).mp present).1

theorem WellFormed.grandchildIds_eq (wellFormed : WellFormed messages) {child_ids : List String}
    (present : ∀ child_id ∈ child_ids, child_id ∈ messages.keys) :
    child_ids.mapM (fun child_id => presentChildren messages ((messages.get? child_id).getD [])) =
      .ok (child_ids.map (links messages).children) := by
  induction child_ids with
  | nil => rfl
  | cons child_id rest ih =>
    obtain ⟨child, found⟩ := Dict.exists_of_mem_keys (present child_id (by simp))
    rw [List.mapM_cons, ih (fun other member => present other (by simp [member])), found,
      Option.getD_some, wellFormed.presentChildren_eq found]
    rfl

theorem WellFormed.attachGrandchildren_eq (wellFormed : WellFormed messages)
    (found : messages.get? message_id = some message) (grandchild_ids : List String) :
    ∃ attached, attachGrandchildren messages (getField message "parentId") message_id
        grandchild_ids = .ok attached ∧ attached.keys = messages.keys ∧
      ∀ id, attached.get? id =
        if (links messages).parent message_id = some id then
          (messages.get? id).map (fun fields => Assoc.set fields "childrenIds" (.arr
            ((((links messages).children id).filter (fun child => decide (child ≠ message_id)) ++
              grandchild_ids).map Json.str)))
        else messages.get? id := by
  have typed := wellFormed.typed_of_get? found
  have member := Dict.mem_keys_of_get? found
  have parentField := parentField_of_typed typed
  have parentEq := links_parent found
  cases named : linkParent message with
  | none =>
    rw [named] at parentField parentEq
    refine ⟨messages, ?_, rfl, ?_⟩
    · rw [parentField]
      rfl
    · intro id
      simp [parentEq]
  | some parent_id =>
    rw [named] at parentField parentEq
    obtain ⟨parent, parentFound⟩ := Dict.exists_of_mem_keys
      (wellFormed.forest.closed message_id parent_id ⟨member, parentEq⟩)
    have children := childIds_iterate (wellFormed.typed_of_get? parentFound)
    have filtered : ((linkChildren parent).map Json.str).filter
          (fun child_id => decide (child_id ≠ .str message_id)) =
        ((linkChildren parent).filter (fun child => decide (child ≠ message_id))).map Json.str := by
      rw [List.filter_map]
      congr 1
      apply List.filter_congr
      intro child _
      simp
    refine ⟨messages.modify parent_id (fun fields => Assoc.set fields "childrenIds" (.arr
      ((((linkChildren parent).filter (fun child => decide (child ≠ message_id)))
        ++ grandchild_ids).map Json.str))), ?_, by simp, ?_⟩
    · simp only [parentField, Option.map_some, Option.getD_some, attachGrandchildren,
        Dict.getJson?_str, parentFound, bind, Except.bind, children, filtered, List.map_append]
    · intro id
      rw [Dict.get?_modify, parentEq, ← links_children parentFound]
      by_cases same : parent_id = id
      · subst same
        simp
      · simp [same]

/-- The map left behind: the message and its children are gone, every other
entry has its links spliced and its other fields kept. -/
structure Spliced (messages : Messages) (message_id : String) (remaining : Messages) : Prop where
  kept_iff : ∀ id, id ∈ remaining.keys ↔
    id ∈ messages.keys ∧ id ∉ message_id :: (links messages).children message_id
  entry : ∀ id ∈ remaining.keys, ∃ old new, messages.get? id = some old ∧
    remaining.get? id = some new ∧ linksTyped new = true ∧
    linkParent new = ((links messages).splice message_id).parent id ∧
    linkChildren new = ((links messages).splice message_id).children id ∧
    ∀ key, key ≠ "parentId" → key ≠ "childrenIds" → new.lookup key = old.lookup key

theorem Spliced.nodes {remaining : Messages} (spliced : Spliced messages message_id remaining)
    (id : String) :
    id ∈ remaining.keys ↔ id ∈ ((links messages).splice message_id).nodes := by
  rw [spliced.kept_iff, ParentLinks.mem_splice_nodes]
  simp

theorem Spliced.links_eq {remaining : Messages} (spliced : Spliced messages message_id remaining)
    {id : String} (kept : id ∈ remaining.keys) :
    (links remaining).parent id = ((links messages).splice message_id).parent id ∧
      (links remaining).children id = ((links messages).splice message_id).children id := by
  obtain ⟨_, new, _, newFound, _, parent, children, _⟩ := spliced.entry id kept
  exact ⟨(links_parent newFound).trans parent, (links_children newFound).trans children⟩

theorem Spliced.wellFormed {remaining : Messages} (spliced : Spliced messages message_id remaining)
    (wellFormed : WellFormed messages) (member : message_id ∈ messages.keys) :
    WellFormed remaining := by
  refine ⟨?_, (wellFormed.forest.splice member).congr spliced.nodes
    (fun id kept => (spliced.links_eq ((spliced.nodes id).mpr kept)).1)
    (fun id kept => (spliced.links_eq ((spliced.nodes id).mpr kept)).2)⟩
  intro entry stored
  have newFound := Dict.mem_entries_iff.mp stored
  obtain ⟨_, new, _, same, typed, _⟩ := spliced.entry entry.1 (Dict.mem_keys_of_get? newFound)
  cases Option.some.inj (newFound.symm.trans same)
  exact typed

theorem Spliced.fewer {remaining : Messages} (spliced : Spliced messages message_id remaining)
    (member : message_id ∈ messages.keys) : remaining.keys.length < messages.keys.length := by
  have inside : message_id :: remaining.keys ⊆ messages.keys :=
    List.cons_subset.mpr ⟨member, fun id kept => ((spliced.kept_iff id).mp kept).1⟩
  have fresh : message_id ∉ remaining.keys := by
    intro kept
    exact ((spliced.kept_iff message_id).mp kept).2 (List.mem_cons_self ..)
  exact (List.nodup_cons.mpr ⟨fresh, remaining.keys_nodup⟩).length_le_of_subset inside

theorem WellFormed.spliced_entry (wellFormed : WellFormed messages)
    (found : messages.get? message_id = some message) {id : String} {old : Fields}
    (oldFound : messages.get? id = some old) :
    let attached := if (links messages).parent message_id = some id then
        Assoc.set old "childrenIds" (.arr
          ((((links messages).children id).filter (fun child => decide (child ≠ message_id)) ++
            (links messages).grandchildren message_id).map Json.str))
      else old
    let new := if id ∈ (links messages).grandchildren message_id then
        Assoc.set attached "parentId" (getField message "parentId")
      else attached
    linksTyped new = true ∧
      linkParent new = ((links messages).splice message_id).parent id ∧
      linkChildren new = ((links messages).splice message_id).children id ∧
      ∀ key, key ≠ "parentId" → key ≠ "childrenIds" → new.lookup key = old.lookup key := by
  intro attached new
  have typed := wellFormed.typed_of_get? oldFound
  have parentField := parentField_of_typed (wellFormed.typed_of_get? found)
  rw [← links_parent found] at parentField
  have accepted : getField message "parentId" = .null ∨
      (getField message "parentId").str?.isSome = true := by
    rw [parentField]
    cases (links messages).parent message_id <;> simp [Json.str?]
  have named : (getField message "parentId").str? = (links messages).parent message_id := by
    rw [parentField]
    cases (links messages).parent message_id <;> simp [Json.str?]
  have attachedTyped : linksTyped attached = true := by
    unfold attached
    split
    · exact linksTyped_set_childrenIds typed _
    · exact typed
  have attachedParent : linkParent attached = linkParent old := by
    unfold attached
    split
    · exact linkParent_set_childrenIds _ _
    · rfl
  have attachedChildren : linkChildren attached =
      ((links messages).splice message_id).children id := by
    unfold attached
    simp only [ParentLinks.splice]
    split
    · exact linkChildren_set_childrenIds _ _
    · exact (links_children oldFound).symm
  have attachedFields : ∀ key, key ≠ "childrenIds" → attached.lookup key = old.lookup key := by
    intro key different
    unfold attached
    split
    · simp [Ne.symm different]
    · rfl
  unfold new
  simp only [ParentLinks.splice, links_parent oldFound]
  split
  · refine ⟨linksTyped_set_parentId attachedTyped _ accepted, ?_, ?_, ?_⟩
    · rw [linkParent_set_parentId, named]
    · rw [linkChildren_set_parentId]
      exact attachedChildren
    · intro key other different
      rw [Assoc.lookup_set, if_neg (Ne.symm other), attachedFields key different]
  · exact ⟨attachedTyped, attachedParent, attachedChildren,
      fun key _ different => attachedFields key different⟩

theorem WellFormed.delete_eq {history : History} (wellFormed : WellFormed history.messages)
    (found : history.messages.get? message_id = some message) :
    ∃ remaining, Spliced history.messages message_id remaining ∧
      ∀ fuel, delete_message_from_history fuel history message_id = (do
        let current_id ← descendFromParent remaining fuel (getField message "parentId")
        let found ← remaining.hasJson current_id
        .ok (message_id :: (links history.messages).children message_id,
          { history with
            messages := remaining
            currentId := if found then current_id else .null })) := by
  have member := Dict.mem_keys_of_get? found
  have forest := wellFormed.forest
  obtain ⟨attached, attachedOk, attachedKeys, attachedGet⟩ :=
    wellFormed.attachGrandchildren_eq found ((links history.messages).grandchildren message_id)
  have listed : ∀ child_id ∈ (links history.messages).children message_id,
      child_id ∈ history.messages.keys :=
    fun child_id present => ((forest.mem_children member).mp present).1
  have grand : (((links history.messages).children message_id).map
      (links history.messages).children).flatten =
        (links history.messages).grandchildren message_id := by
    rw [ParentLinks.grandchildren, List.flatMap_def]
  let moved := ((links history.messages).grandchildren message_id).foldl
    (fun messages grandchild_id => messages.modify grandchild_id (fun fields =>
      Assoc.set fields "parentId" (getField message "parentId"))) attached
  have movedKeys : moved.keys = history.messages.keys := by
    rw [Dict.keys_foldl_modify, attachedKeys]
  refine ⟨(message_id :: (links history.messages).children message_id).foldl Dict.erase moved,
    ⟨?_, ?_⟩, ?_⟩
  · intro id
    rw [Dict.mem_keys_foldl_erase, movedKeys, and_comm]
  · intro id kept
    rw [Dict.mem_keys_foldl_erase, movedKeys] at kept
    obtain ⟨old, oldFound⟩ := Dict.exists_of_mem_keys kept.2
    refine ⟨old, _, oldFound, ?_, wellFormed.spliced_entry found oldFound⟩
    rw [Dict.get?_foldl_erase, if_neg kept.1,
      Dict.get?_foldl_modify _ (forest.grandchildren_nodup member), attachedGet, oldFound]
    split <;> split <;> rfl
  · intro fuel
    simp only [delete_message_from_history, found, wellFormed.presentChildren_eq found,
      wellFormed.grandchildIds_eq listed, bind, Except.bind, grand, attachedOk]
    rfl

theorem descendToLeaf_eq (wellFormed : WellFormed messages) {fuel : Nat} {id leaf : String}
    (found : messages.get? id = some message)
    (walk : (links messages).descend (fuel + 1) id = some leaf) :
    descendToLeaf messages fuel (.str id) (getFieldD message "childrenIds" (.arr [])) =
      .ok (.str leaf) := by
  induction fuel generalizing id message with
  | zero =>
    have children := links_children found
    simp only [ParentLinks.descend, follow, children] at walk
    cases last : (linkChildren message).getLast? with
    | some child => simp [last] at walk
    | none =>
      have empty := List.getLast?_eq_none_iff.mp last
      rcases childField_of_typed (wellFormed.typed_of_get? found) with ⟨absent, _⟩ | stored
      · simp [descendToLeaf, getFieldD, absent]
        simpa [last] using walk
      · simp [descendToLeaf, getFieldD, stored, empty]
        simpa [last] using walk
  | succ fuel ih =>
    have children := links_children found
    have member := Dict.mem_keys_of_get? found
    rw [ParentLinks.descend, follow, children] at walk
    rcases childField_of_typed (wellFormed.typed_of_get? found) with ⟨absent, none⟩ | stored
    · simp only [none, List.getLast?_nil, Option.some.injEq] at walk
      simp [descendToLeaf, getFieldD, absent, walk]
    · simp only [getFieldD, stored, Option.getD_some, descendToLeaf, Json.truthy_arr]
      cases last : (linkChildren message).getLast? with
      | none =>
        rw [last] at walk
        have empty := List.getLast?_eq_none_iff.mp last
        simpa [empty] using walk
      | some child =>
        rw [last] at walk
        have nonempty : linkChildren message ≠ [] := by
          intro empty
          simp [empty] at last
        have edge := (wellFormed.forest.mirrored.listed id member child).mp
          (by rw [children]; exact List.mem_of_getLast? last)
        obtain ⟨entry, childFound⟩ := Dict.exists_of_mem_keys edge.1
        have tail := ih childFound walk
        simpa [nonempty, lastItem, last, bind, Except.bind, childFound, getFieldD] using tail

theorem mem_rootIds (typed : ∀ entry ∈ messages.entries, linksTyped entry.2 = true) {id : String} :
    id ∈ rootIds messages ↔ id ∈ messages.keys ∧ (links messages).parent id = none := by
  simp only [rootIds, List.mem_map, List.mem_filter, decide_eq_true_eq, Prod.exists,
    exists_and_right, exists_eq_right]
  constructor
  · rintro ⟨fields, member, null⟩
    have found := Dict.mem_entries_iff.mp member
    refine ⟨Dict.mem_keys_of_get? found, ?_⟩
    rw [links_parent found, linkParent, null]
    rfl
  · rintro ⟨member, none⟩
    obtain ⟨fields, found⟩ := Dict.exists_of_mem_keys member
    rw [links_parent found] at none
    refine ⟨fields, Dict.mem_entries_iff.mpr found, ?_⟩
    simpa [none] using parentField_of_typed (typed _ (Dict.mem_entries_iff.mpr found))

/-- What a deletion leaves: exactly the message and its children are gone, the
rest is the spliced forest, and the current id is a leaf below the parent or,
with nothing left, null. -/
structure Deleted (history : History) (message_id : String) (deleted : List String)
    (result : History) : Prop where
  deleted_iff : ∀ id, id ∈ deleted ↔
    id = message_id ∨ (links history.messages).Edge id message_id
  kept_iff : ∀ id, id ∈ result.messages.keys ↔ id ∈ history.messages.keys ∧ id ∉ deleted
  wellFormed : WellFormed result.messages
  rooted : ∀ id ∈ result.messages.keys, ∃ root ∈ result.messages.keys,
    (links result.messages).parent root = none ∧
      Relation.ReflTransGen (links result.messages).Edge id root
  spliced : ∀ id ∈ result.messages.keys,
    (links result.messages).parent id = ((links history.messages).splice message_id).parent id ∧
      (links result.messages).children id =
        ((links history.messages).splice message_id).children id
  fields_kept : ∀ id old new, history.messages.get? id = some old →
    result.messages.get? id = some new →
    ∀ key, key ≠ "parentId" → key ≠ "childrenIds" → new.lookup key = old.lookup key
  rest_kept : result.fields = history.fields
  current : (∃ leaf ∈ result.messages.keys, result.currentId = .str leaf ∧
      (links result.messages).children leaf = [] ∧
      ∀ above, (links history.messages).parent message_id = some above →
        Relation.ReflTransGen (links result.messages).Edge leaf above) ∨
    result.currentId = .null ∧ result.messages.keys = []

theorem WellFormed.descent {remaining : Messages} (wellFormed : WellFormed remaining)
    {parent_id : Json} {fuel : Nat} (enough : remaining.keys.length < fuel)
    (start : parent_id = .null ∨ ∃ above ∈ remaining.keys, parent_id = .str above) :
    ∃ current_id, descendFromParent remaining fuel parent_id = .ok current_id ∧
      ((∃ leaf ∈ remaining.keys, current_id = .str leaf ∧ (links remaining).children leaf = [] ∧
          ∀ above, parent_id = .str above →
            Relation.ReflTransGen (links remaining).Edge leaf above) ∨
        current_id = .null ∧ remaining.keys = []) := by
  obtain ⟨fuel, rfl⟩ : ∃ rounds, fuel = rounds + 1 := ⟨fuel - 1, by omega⟩
  -- From a present id the loop is the descent of the link structure.
  have walk {id : String} {message : Fields} (found : remaining.get? id = some message)
      (rounds : Nat) (long : remaining.keys.length ≤ rounds + 1) :
      ∃ leaf ∈ remaining.keys,
        descendToLeaf remaining rounds (.str id) (getFieldD message "childrenIds" (.arr [])) =
          .ok (.str leaf) ∧
        (links remaining).children leaf = [] ∧
        Relation.ReflTransGen (links remaining).Edge leaf id := by
    have enough : (links remaining).nodes.length ≤ rounds + 1 := long
    obtain ⟨leaf, leafMember, result, empty, path⟩ :=
      wellFormed.forest.descend_leaf (Dict.mem_keys_of_get? found) enough
    exact ⟨leaf, leafMember, descendToLeaf_eq wellFormed found result, empty, path⟩
  rcases start with rfl | ⟨above, member, rfl⟩
  · cases last : (rootIds remaining).getLast? with
    | none =>
      have noRoots := List.getLast?_eq_none_iff.mp last
      have empty : remaining.keys = [] := by
        apply List.eq_nil_iff_forall_not_mem.mpr
        intro id member
        obtain ⟨root, rootMember, top, _⟩ := wellFormed.forest.rooted member
        have listed := (mem_rootIds wellFormed.typed).mpr ⟨rootMember, top⟩
        simp [noRoots] at listed
      refine ⟨.null, ?_, .inr ⟨rfl, empty⟩⟩
      simp [descendFromParent, noRoots, descendToLeaf, bind, Except.bind]
    | some root =>
      have listed := (mem_rootIds wellFormed.typed).mp (List.mem_of_getLast? last)
      have nonempty : rootIds remaining ≠ [] := by
        intro empty
        simp [empty] at last
      obtain ⟨message, found⟩ := Dict.exists_of_mem_keys listed.1
      obtain ⟨leaf, leafMember, result, empty, _⟩ := walk found fuel (by omega)
      refine ⟨.str leaf, ?_, .inl ⟨leaf, leafMember, rfl, empty, nofun⟩⟩
      simpa [descendFromParent, descendToLeaf, nonempty, lastItem, last, bind, Except.bind,
        found] using result
  · obtain ⟨message, found⟩ := Dict.exists_of_mem_keys member
    obtain ⟨leaf, leafMember, result, empty, path⟩ := walk found (fuel + 1) (by omega)
    refine ⟨.str leaf, ?_, .inl ⟨leaf, leafMember, rfl, empty, ?_⟩⟩
    · simpa [descendFromParent, bind, Except.bind, found] using result
    · rintro _ ⟨⟩
      exact path

/-- On a forest with mirrored links a deletion returns and leaves what `Deleted`
says; an id that is not in the history changes nothing. -/
theorem delete_message_from_history_forest (history : History) (message_id : String)
    (wellFormed : WellFormed history.messages) (fuel : Nat)
    (enough : history.messages.keys.length ≤ fuel) :
    (message_id ∈ history.messages.keys → ∃ deleted result,
        delete_message_from_history fuel history message_id = .ok (deleted, result) ∧
          Deleted history message_id deleted result) ∧
      (message_id ∉ history.messages.keys →
        delete_message_from_history fuel history message_id = .ok ([], history)) := by
  constructor
  · intro member
    obtain ⟨message, found⟩ := Dict.exists_of_mem_keys member
    obtain ⟨remaining, spliced, run⟩ := wellFormed.delete_eq found
    have remainingWellFormed := spliced.wellFormed wellFormed member
    have parentField := parentField_of_typed (wellFormed.typed_of_get? found)
    rw [← links_parent found] at parentField
    have start : getField message "parentId" = .null ∨
        ∃ above ∈ remaining.keys, getField message "parentId" = .str above := by
      cases named : (links history.messages).parent message_id with
      | none => exact .inl (by simpa [named] using parentField)
      | some above =>
        exact .inr ⟨above, (spliced.nodes above).mpr (wellFormed.forest.parent_kept member named),
          by simpa [named] using parentField⟩
    obtain ⟨current_id, descent, outcome⟩ :=
      remainingWellFormed.descent (Nat.lt_of_lt_of_le (spliced.fewer member) enough) start
    refine ⟨message_id :: (links history.messages).children message_id,
      ⟨remaining, current_id, history.fields⟩, ?_, ?_⟩
    · rw [run fuel, descent]
      rcases outcome with ⟨leaf, leafMember, rfl, _⟩ | ⟨rfl, _⟩
      · have present := Dict.get?_isSome.mpr leafMember
        simp [present, bind, Except.bind]
      · rfl
    · refine ⟨?_, spliced.kept_iff, remainingWellFormed,
        fun id kept => remainingWellFormed.forest.rooted kept,
        fun id kept => spliced.links_eq kept, ?_, rfl, ?_⟩
      · intro id
        simp [wellFormed.forest.mem_children member]
      · intro id old new oldFound newFound
        obtain ⟨_, _, oldSame, newSame, _, _, _, kept⟩ :=
          spliced.entry id (Dict.mem_keys_of_get? newFound)
        cases Option.some.inj (oldFound.symm.trans oldSame)
        cases Option.some.inj (newFound.symm.trans newSame)
        exact kept
      · rcases outcome with ⟨leaf, leafMember, same, empty, below⟩ | none
        · refine .inl ⟨leaf, leafMember, same, empty, ?_⟩
          intro above named
          exact below above (by simpa [named] using parentField)
        · exact .inr none
  · intro absent
    simp [delete_message_from_history, Dict.get?_eq_none.mpr absent]

def sampleHistory : History where
  messages := Dict.ofEntries
    [("a", [("parentId", .null), ("childrenIds", .arr [.str "b", .str "e"])]),
      ("b", [("parentId", .str "a"), ("childrenIds", .arr [.str "c"])]),
      ("c", [("parentId", .str "b"), ("childrenIds", .arr [.str "d"])]),
      ("d", [("parentId", .str "c"), ("childrenIds", .arr [])]),
      ("e", [("parentId", .str "a"), ("childrenIds", .arr [])])]
  currentId := .str "d"
  fields := Dict.empty

theorem sampleHistory_delete : WellFormed sampleHistory.messages ∧
    ∃ deleted result, delete_message_from_history 5 sampleHistory "b" = .ok (deleted, result) ∧
      Deleted sampleHistory "b" deleted result :=
  ⟨by decide, (delete_message_from_history_forest sampleHistory "b" (by decide) 5 (by decide)).1
    (by decide)⟩

end OpenWebui.Chats
