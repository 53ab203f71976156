import Mathlib.Data.Set.Basic
import OpenWebui.Base.Switch
import OpenWebui.Groups.Patch

/-! What the operations of a SCIM patch ask for, one after the other, and when the patch does just
that and tells just the difference it makes. -/

namespace OpenWebui.Groups

@[ext] structure GroupView where
  name : String
  members : Set String

inductive Change where
  | rename (name : String)
  | add (ids : List String)
  | replace (ids : List String)
  | remove (ids : List String)
  | clear

def Change.apply (view : GroupView) : Change → GroupView
  | .rename name => { view with name := name }
  | .add ids => { view with members := view.members ∪ { user | user ∈ ids } }
  | .replace ids => { view with members := { user | user ∈ ids } }
  | .remove ids => { view with members := view.members \ { user | user ∈ ids } }
  | .clear => { view with members := ∅ }

inductive Verb where
  | add
  | replace
deriving DecidableEq

/-- An entry of a list of members: the id of the user, and what else is said of it. -/
structure MemberValue where
  value : String
  rest : Fields

/-- The attributes of a group that are given without a path. -/
structure Attributes where
  displayName : Option String
  members : Option (List MemberValue)
  rest : Fields

inductive Operation where
  | displayName (verb : Verb) (name : String)
  | members (verb : Verb) (list : List MemberValue)
  | removeMembers (list : Option (List MemberValue))
  | removeMember (id : String)
  | object (verb : Verb) (attributes : Attributes)

def Verb.written : Verb → String
  | .add => "add"
  | .replace => "replace"

def MemberValue.written (member : MemberValue) : Json :=
  .obj (("value", .str member.value) :: member.rest)

def writtenList (list : List MemberValue) : Json := .arr (list.map MemberValue.written)

def Attributes.written (attributes : Attributes) : Json :=
  .obj ((attributes.displayName.toList.map (fun name => ("displayName", .str name))) ++
    (attributes.members.toList.map (fun list => ("members", writtenList list))) ++ attributes.rest)

def spelled (text : List Char) : List Char :=
  text.flatMap (fun char => if char = '"' ∨ char = '\\' then ['\\', char] else [char])

def pathStart : List Char := memberFilter ++ [' ']

/-- `members[value eq "id"]`. -/
def memberPath (id : String) : String :=
  String.ofList (pathStart ++ '"' :: (spelled id.toList ++ '"' :: [']']))

def Operation.written : Operation → SCIMPatchOperation
  | .displayName verb name => ⟨verb.written, some "displayName", .str name⟩
  | .members verb list => ⟨verb.written, some "members", writtenList list⟩
  | .removeMembers list => ⟨"remove", some "members", (list.map writtenList).getD .null⟩
  | .removeMember id => ⟨"remove", some (memberPath id), .null⟩
  | .object verb attributes => ⟨verb.written, none, attributes.written⟩

def ids (list : List MemberValue) : List String := list.map MemberValue.value

def Verb.change (verb : Verb) (list : List MemberValue) : Change :=
  match verb with
  | .add => .add (ids list)
  | .replace => .replace (ids list)

def Operation.changes : Operation → List Change
  | .displayName _ name => [.rename name]
  | .members verb list => [verb.change list]
  | .removeMembers none => [.clear]
  | .removeMembers (some list) => [.remove (ids list)]
  | .removeMember id => [.remove [id]]
  | .object verb attributes =>
    attributes.displayName.toList.map Change.rename ++ attributes.members.toList.map verb.change

def applied (view : GroupView) (operations : List Operation) : GroupView :=
  (operations.flatMap Operation.changes).foldl Change.apply view

def Change.tells (user : String) : Change → Option Bool
  | .rename _ => none
  | .add ids => if user ∈ ids then some true else none
  | .replace ids => some (decide (user ∈ ids))
  | .remove ids => if user ∈ ids then some false else none
  | .clear => some false

def Change.saysName : Change → Option String
  | .rename name => some name
  | _ => none

def asked (user : String) (operations : List Operation) : List Bool :=
  (operations.flatMap Operation.changes).filterMap (Change.tells user)

def askedNames (operations : List Operation) : List String :=
  (operations.flatMap Operation.changes).filterMap Change.saysName

def readId (id : String) : String :=
  String.ofList ((spelled id.toList).takeWhile (fun char => decide (char ≠ '"')))

/-- What the patch hears of an operation: lists of members with `members` as their path, and the
removal of one member. Additions and removals are announced whatever they change. -/
def Operation.heard (user : String) : Operation → Option Switch.Order
  | .members .add list => if user ∈ ids list then some ⟨true, true⟩ else none
  | .members .replace list => some ⟨decide (user ∈ ids list), false⟩
  | .removeMember id => if user = readId id then some ⟨false, true⟩ else none
  | _ => none

def Operation.heardName : Operation → Option String
  | .displayName .replace name => some name
  | _ => none

def orders (user : String) (operations : List Operation) : List Switch.Order :=
  operations.filterMap (Operation.heard user)

/-- The users of a list exist where the database asks for that, and a list that replaces the members
names none twice. -/
def Operation.Accepted (known : String → Bool) : Operation → Prop
  | .members .add list => ∀ user ∈ ids list, known user = true
  | .members .replace list => (ids list).Nodup ∧ ∀ user ∈ ids list, known user = true
  | _ => True

theorem name_applied (view : GroupView) (changes : List Change) :
    (changes.foldl Change.apply view).name =
      ((changes.filterMap Change.saysName).getLast?).getD view.name := by
  induction changes using List.reverseRecOn with
  | nil => rfl
  | append_singleton before change ih =>
    rw [List.foldl_concat, List.filterMap_append]
    cases change <;> simp [Change.apply, Change.saysName, ih]

theorem mem_applied {view : GroupView} {user : String} {start : Bool}
    (begins : user ∈ view.members ↔ start = true) (changes : List Change) :
    user ∈ (changes.foldl Change.apply view).members ↔
      ((changes.filterMap (Change.tells user)).getLast?).getD start = true := by
  induction changes using List.reverseRecOn with
  | nil => exact begins
  | append_singleton before change ih =>
    rw [List.foldl_concat, List.filterMap_append]
    cases change with
    | rename name => simpa [Change.apply, Change.tells] using ih
    | add ids =>
      by_cases listed : user ∈ ids
      · simp [Change.apply, Change.tells, listed]
      · simpa [Change.apply, Change.tells, listed] using ih
    | replace ids => simp [Change.apply, Change.tells]
    | remove ids =>
      by_cases listed : user ∈ ids
      · simp [Change.apply, Change.tells, listed]
      · simpa [Change.apply, Change.tells, listed] using ih
    | clear => simp [Change.apply, Change.tells]

section Run

variable {known : String → Bool} {tables : Tables known} {now : Int} {id : String} {group : Group}

def begins (tables : Tables known) (id user : String) : Bool :=
  decide (user ∈ get_group_user_ids_by_id tables id)

/-- The state after operations that could all be done. -/
structure Patched (tables : Tables known) (id : String) (group : Group) (operations : List Operation)
    (state : PatchState known) : Prop where
  named : Named state.tables id group.name group.description
  name : state.name = .str ((operations.filterMap Operation.heardName).getLast?.getD group.name)
  members : ∀ user, user ∈ get_group_user_ids_by_id state.tables id ↔
    Switch.after (begins tables id user) (orders user operations) = true
  added : ∀ user, user ∈ state.added_member_ids ↔
    Switch.Announced (begins tables id user) (orders user operations) true
  removed : ∀ user, user ∈ state.removed_member_ids ↔
    Switch.Announced (begins tables id user) (orders user operations) false

@[simp] theorem mem_sortedSet {user : String} {ids : List String} :
    user ∈ sortedSet ids ↔ user ∈ ids := by
  rw [sortedSet, List.mem_mergeSort, List.mem_dedup]

theorem Patched.start (found : tables.group.get? id = some group) :
    Patched tables id group [] ⟨tables, .str group.name, [], []⟩ where
  named := ⟨group.updated_at, found⟩
  name := rfl
  members user := by simp [orders, begins]
  added user := by simp [orders, Switch.not_announced_nil]
  removed user := by simp [orders, Switch.not_announced_nil]

theorem orders_concat (user : String) (operations : List Operation) (operation : Operation) :
    orders user (operations ++ [operation]) =
      orders user operations ++ (operation.heard user).toList := by
  rw [orders, List.filterMap_append]
  cases said : operation.heard user <;> simp [orders, said]

theorem Patched.skip {operations : List Operation} {state : PatchState known} {operation : Operation}
    (patched : Patched tables id group operations state) (silent : ∀ user, operation.heard user = none)
    (unnamed : operation.heardName = none) : Patched tables id group (operations ++ [operation]) state := by
  have same : ∀ user, orders user (operations ++ [operation]) = orders user operations := by
    intro user
    rw [orders_concat, silent]
    exact List.append_nil _
  refine ⟨patched.named, ?_, ?_, ?_, ?_⟩
  · rw [patched.name, List.filterMap_append]
    simp [unnamed]
  · intro user
    rw [same]
    exact patched.members user
  · intro user
    rw [same]
    exact patched.added user
  · intro user
    rw [same]
    exact patched.removed user

theorem Patched.turn {operations : List Operation} {state next : PatchState known}
    {operation : Operation} (patched : Patched tables id group operations state)
    (named : Named next.tables id group.name group.description) (name : next.name = state.name)
    (unnamed : operation.heardName = none)
    (members : ∀ user, user ∈ get_group_user_ids_by_id next.tables id ↔
      ((operation.heard user).map Switch.Order.value).getD
        (decide (user ∈ get_group_user_ids_by_id state.tables id)) = true)
    (added : ∀ user, user ∈ next.added_member_ids ↔ user ∈ state.added_member_ids ∨
      ∃ order, operation.heard user = some order ∧ order.value = true ∧
        (order.always = true ∨ user ∉ get_group_user_ids_by_id state.tables id))
    (removed : ∀ user, user ∈ next.removed_member_ids ↔ user ∈ state.removed_member_ids ∨
      ∃ order, operation.heard user = some order ∧ order.value = false ∧
        (order.always = true ∨ user ∈ get_group_user_ids_by_id state.tables id)) :
    Patched tables id group (operations ++ [operation]) next := by
  refine ⟨named, ?_, ?_, ?_, ?_⟩
  · rw [name, patched.name, List.filterMap_append]
    simp [unnamed]
  · intro user
    rw [members user, orders_concat]
    cases heard : operation.heard user with
    | none => simp [patched.members user]
    | some order => simp
  · intro user
    rw [added user, orders_concat, patched.added user, patched.members user]
    cases heard : operation.heard user with
    | none => simp
    | some order => simp [Switch.announced_concat]
  · intro user
    rw [removed user, orders_concat, patched.removed user, patched.members user]
    cases heard : operation.heard user with
    | none => simp
    | some order => simp [Switch.announced_concat]

theorem member_values_written (list : List MemberValue) :
    member_values (writtenList list) = .ok (ids list) := by
  have each : ∀ member ∈ list.map MemberValue.written, member_value member =
      .ok ((member_value member).toOption.getD "") := by
    intro member listed
    obtain ⟨value, -, rfl⟩ := List.mem_map.mp listed
    rfl
  refine (mapM_ok each).trans ?_
  rw [List.map_map]
  rfl

theorem Patched.replace {operations : List Operation} {state : PatchState known}
    {list : List MemberValue} (patched : Patched tables id group operations state)
    (accepted : (Operation.members .replace list).Accepted known) :
    ∃ next, replace_members id state (writtenList list) = .ok next ∧
      Patched tables id group (operations ++ [.members .replace list]) next := by
  obtain ⟨left, done⟩ : ∃ left, set_group_user_ids_by_id id (ids list) state.tables = some left :=
    set_members_iff.mpr accepted
  rw [replace_members, member_values_written]
  simp only [done]
  refine ⟨_, rfl, patched.turn ?_ rfl rfl ?_ ?_ ?_⟩
  · obtain ⟨updated_at, found⟩ := patched.named
    refine ⟨updated_at, ?_⟩
    rw [← found]
    exact congrArg (fun groups : Dict String Group => groups.get? id) (mem_set_members done).1
  · intro user
    simp [Operation.heard, (mem_set_members done).2]
  · intro user
    simp [Operation.heard, and_comm]
  · intro user
    simp [Operation.heard, and_comm]

def addedState (now : Int) (id : String) (users : List String) (state : PatchState known) :
    PatchState known :=
  { state with
    tables := users.foldl (fun tables user => (add_users_to_group now id (some [user]) tables).2)
      state.tables
    added_member_ids := state.added_member_ids ++ users }

theorem add_members_written (list : List MemberValue) (state : PatchState known) :
    (list.map MemberValue.written).foldlM (add_member now id) state =
      .ok (addedState now id (ids list) state) := by
  induction list generalizing state with
  | nil => simp [addedState, ids, pure, Except.pure]
  | cons member rest ih =>
    rw [List.map_cons, List.foldlM_cons]
    refine (ih _).trans ?_
    simp [addedState, ids]

theorem mem_addedState {users : List String} {state : PatchState known} {name description : String}
    (named : Named state.tables id name description) (accepted : ∀ user ∈ users, known user = true) :
    Named (addedState now id users state).tables id name description ∧
      ∀ user, user ∈ get_group_user_ids_by_id (addedState now id users state).tables id ↔
        user ∈ get_group_user_ids_by_id state.tables id ∨ user ∈ users := by
  induction users using List.reverseRecOn with
  | nil => exact ⟨named, fun user => by simp [addedState]⟩
  | append_singleton before last ih =>
    obtain ⟨named_before, members⟩ := ih (fun user listed => accepted user (by simp [listed]))
    simp only [addedState, List.foldl_concat] at named_before members ⊢
    refine ⟨named_added named_before _, ?_⟩
    intro user
    rw [mem_added_one named_before (accepted last (by simp)), members user]
    simp [or_assoc]

theorem Patched.add {operations : List Operation} {state : PatchState known} {list : List MemberValue}
    (patched : Patched tables id group operations state)
    (accepted : (Operation.members .add list).Accepted known) :
    Patched tables id group (operations ++ [.members .add list]) (addedState now id (ids list) state) := by
  obtain ⟨named, members⟩ := @mem_addedState _ now id _ _ _ _ patched.named accepted
  refine patched.turn named rfl rfl ?_ ?_ ?_
  · intro user
    rw [members user]
    by_cases listed : user ∈ ids list
    · simp [Operation.heard, listed]
    · simp [Operation.heard, listed]
  · intro user
    by_cases listed : user ∈ ids list
    · simp [Operation.heard, listed, addedState]
    · simp [Operation.heard, listed, addedState]
  · intro user
    by_cases listed : user ∈ ids list
    · simp [Operation.heard, listed, addedState]
    · simp [Operation.heard, listed, addedState]

theorem split_quotes {before text after : List Char} (plain : '"' ∉ before) :
    ((before ++ '"' :: (text ++ '"' :: after)).splitOn '"')[1]? =
      some (text.takeWhile (fun char => decide (char ≠ '"'))) := by
  have unquoted : '"' ∉ text.takeWhile (fun char => decide (char ≠ '"')) := by
    intro listed
    have test := List.all_eq_true.mp List.all_takeWhile _ listed
    simp at test
  rw [List.splitOn_append_cons_self_of_not_mem plain]
  cases rest : text.dropWhile (fun char => decide (char ≠ '"')) with
  | nil =>
    have whole := List.takeWhile_append_dropWhile (p := fun char => decide (char ≠ '"')) (l := text)
    rw [rest, List.append_nil] at whole
    rw [whole] at unquoted ⊢
    rw [List.splitOn_append_cons_self_of_not_mem unquoted]
    rfl
  | cons char later =>
    have quote : char = '"' := by
      have test := List.head?_dropWhile_not (fun char => decide (char ≠ '"')) text
      rw [rest] at test
      simpa using test
    have whole := List.takeWhile_append_dropWhile (p := fun char => decide (char ≠ '"')) (l := text)
    rw [rest, quote] at whole
    have spread : text ++ '"' :: after =
        text.takeWhile (fun char => decide (char ≠ '"')) ++ '"' :: (later ++ '"' :: after) := by
      rw [← List.cons_append, ← List.append_assoc, whole]
    rw [spread, List.splitOn_append_cons_self_of_not_mem unquoted]
    rfl

theorem Patched.remove {operations : List Operation} {state : PatchState known} {member : String}
    (patched : Patched tables id group operations state) :
    ∃ next, remove_member now id state (memberPath member) = .ok next ∧
      Patched tables id group (operations ++ [.removeMember member]) next := by
  have unquoted : '"' ∉ pathStart := by decide
  have part : ((memberPath member).toList.splitOn '"')[1]? =
      some ((spelled member.toList).takeWhile (fun char => decide (char ≠ '"'))) := by
    rw [memberPath, String.toList_ofList, split_quotes unquoted]
  rw [remove_member, part]
  refine ⟨_, rfl, patched.turn (named_removed patched.named _) rfl rfl ?_ ?_ ?_⟩
  · intro user
    rw [mem_removed patched.named, ← readId]
    by_cases same : user = readId member
    · simp [Operation.heard, same]
    · simp [Operation.heard, same]
  · intro user
    by_cases same : user = readId member
    · simp [Operation.heard, same]
    · simp [Operation.heard, same]
  · intro user
    rw [List.mem_append, List.mem_singleton, ← readId]
    by_cases same : user = readId member
    · simp [Operation.heard, same]
    · simp [Operation.heard, same]

theorem Patched.rename {operations : List Operation} {state : PatchState known}
    (patched : Patched tables id group operations state) (name : String) :
    Patched tables id group (operations ++ [.displayName .replace name])
      { state with name := .str name } := by
  have same : ∀ user, orders user (operations ++ [.displayName .replace name]) =
      orders user operations := by
    intro user
    rw [orders_concat]
    exact List.append_nil _
  refine ⟨patched.named, ?_, ?_, ?_, ?_⟩
  · rw [List.filterMap_append]
    simp [Operation.heardName]
  · intro user
    rw [same]
    exact patched.members user
  · intro user
    rw [same]
    exact patched.added user
  · intro user
    rw [same]
    exact patched.removed user

theorem patch_remove (state : PatchState known) (path : String) (value : Json) :
    patch_operation now id state ⟨"remove", some path, value⟩ =
      if memberFilter.isPrefixOf path.toList then remove_member now id state path else .ok state := by
  have remove : lower "remove" = "remove" := by decide
  simp [patch_operation, remove]

theorem patch_written (state : PatchState known) (operation : Operation) :
    patch_operation now id state operation.written =
      match operation with
      | .displayName .replace name => .ok { state with name := .str name }
      | .members .add list => .ok (addedState now id (ids list) state)
      | .members .replace list => replace_members id state (writtenList list)
      | .removeMember member => remove_member now id state (memberPath member)
      | _ => .ok state := by
  have add : lower "add" = "add" := by decide
  have replace : lower "replace" = "replace" := by decide
  cases operation with
  | displayName verb name =>
    cases verb with
    | add => simp [patch_operation, Operation.written, Verb.written, add]
    | replace => simp [patch_operation, Operation.written, Verb.written, replace]
  | members verb list =>
    cases verb with
    | add =>
      simp only [patch_operation, Operation.written, Verb.written, add]
      exact add_members_written list state
    | replace => simp [patch_operation, Operation.written, Verb.written, replace]
  | removeMembers list =>
    have other : memberFilter.isPrefixOf "members".toList = false := by decide
    rw [Operation.written, patch_remove, other]
    rfl
  | removeMember member =>
    have starts : memberFilter.isPrefixOf (memberPath member).toList = true := by
      rw [memberPath, String.toList_ofList, pathStart, List.append_assoc]
      exact List.isPrefixOf_iff_prefix.mpr (List.prefix_append _ _)
    rw [Operation.written, patch_remove, if_pos starts]
  | object verb attributes =>
    cases verb with
    | add => simp [patch_operation, Operation.written, Verb.written, add]
    | replace => simp [patch_operation, Operation.written, Verb.written, replace]

theorem Patched.step {operations : List Operation} {state : PatchState known} {operation : Operation}
    (patched : Patched tables id group operations state) (accepted : operation.Accepted known) :
    ∃ next, patch_operation now id state operation.written = .ok next ∧
      Patched tables id group (operations ++ [operation]) next := by
  rw [patch_written]
  cases operation with
  | displayName verb name =>
    cases verb with
    | add => exact ⟨state, rfl, patched.skip (fun _ => rfl) rfl⟩
    | replace => exact ⟨_, rfl, patched.rename name⟩
  | members verb list =>
    cases verb with
    | add => exact ⟨_, rfl, patched.add accepted⟩
    | replace => exact patched.replace accepted
  | removeMembers list => exact ⟨state, rfl, patched.skip (fun _ => rfl) rfl⟩
  | removeMember member => exact patched.remove
  | object verb attributes => exact ⟨state, rfl, patched.skip (fun _ => rfl) rfl⟩

theorem patched_run (found : tables.group.get? id = some group) {operations : List Operation}
    (accepted : ∀ operation ∈ operations, operation.Accepted known) :
    ∃ state, (operations.map Operation.written).foldlM (patch_operation now id)
        ⟨tables, .str group.name, [], []⟩ = .ok state ∧
      Patched tables id group operations state := by
  induction operations using List.reverseRecOn with
  | nil => exact ⟨_, rfl, .start found⟩
  | append_singleton before operation ih =>
    obtain ⟨state, ran, patched⟩ := ih (fun other listed => accepted other (by simp [listed]))
    obtain ⟨next, done, patched_next⟩ := @Patched.step _ _ now _ _ _ _ operation patched
      (accepted operation (by simp))
    refine ⟨next, ?_, patched_next⟩
    rw [List.map_append, List.foldlM_append, ran]
    exact (bind_pure (patch_operation now id state operation.written)).trans done

theorem step_accepted {state next : PatchState known} {operation : Operation}
    (done : patch_operation now id state operation.written = .ok next) :
    (∀ user ∈ state.added_member_ids, user ∈ next.added_member_ids) ∧
      ((∀ user ∈ next.added_member_ids, known user = true) → operation.Accepted known) := by
  rw [patch_written] at done
  cases operation with
  | displayName verb name =>
    cases verb with
    | add =>
      cases done
      exact ⟨fun _ there => there, fun _ => trivial⟩
    | replace =>
      cases done
      exact ⟨fun _ there => there, fun _ => trivial⟩
  | members verb list =>
    cases verb with
    | add =>
      cases done
      exact ⟨fun _ there => List.mem_append_left _ there,
        fun honest user listed => honest user (List.mem_append_right _ listed)⟩
    | replace =>
      simp only [replace_members, member_values_written] at done
      cases set : set_group_user_ids_by_id id (ids list) state.tables with
      | none => simp [set] at done
      | some left =>
        simp only [set] at done
        cases done
        exact ⟨fun _ there => List.mem_append_left _ there, fun _ => set_members_iff.mp ⟨left, set⟩⟩
  | removeMembers list =>
    cases done
    exact ⟨fun _ there => there, fun _ => trivial⟩
  | removeMember member =>
    simp only [remove_member] at done
    split at done
    · cases done
    · cases done
      exact ⟨fun _ there => there, fun _ => trivial⟩
  | object verb attributes =>
    cases done
    exact ⟨fun _ there => there, fun _ => trivial⟩

theorem run_accepted {operations : List Operation} {state final : PatchState known}
    (ran : (operations.map Operation.written).foldlM (patch_operation now id) state = .ok final)
    (honest : ∀ user ∈ final.added_member_ids, known user = true) :
    (∀ user ∈ state.added_member_ids, user ∈ final.added_member_ids) ∧
      ∀ operation ∈ operations, operation.Accepted known := by
  induction operations generalizing state with
  | nil =>
    cases ran
    exact ⟨fun _ there => there, fun _ listed => by cases listed⟩
  | cons operation rest ih =>
    rw [List.map_cons, List.foldlM_cons] at ran
    obtain ⟨next, done, later⟩ := bind_eq_ok.mp ran
    obtain ⟨kept, accepted⟩ := step_accepted done
    obtain ⟨kept_later, accepted_later⟩ := ih later
    refine ⟨fun user there => kept_later user (kept user there), ?_⟩
    intro other listed
    rcases List.mem_cons.mp listed with rfl | later
    · exact accepted (fun user there => honest user (kept_later user there))
    · exact accepted_later other later

end Run

section Patch

variable {known : String → Bool}

def addedIn (events : List Event) : List String :=
  events.flatMap (fun event =>
    match event with
    | .GROUP_MEMBER_ADDED member_ids _ => member_ids
    | _ => [])

def removedIn (events : List Event) : List String :=
  events.flatMap (fun event =>
    match event with
    | .GROUP_MEMBER_REMOVED member_ids _ => member_ids
    | _ => [])

def viewOf (tables : Tables known) (id : String) (group : Group) : GroupView :=
  ⟨group.name, { user | user ∈ get_group_user_ids_by_id tables id }⟩

/-- The group is as the changes leave it, and the events tell the difference in members. -/
structure InOrder (tables left : Tables known) (id : String) (group : Group)
    (operations : List Operation) (events : List Event) : Prop where
  group : ∃ after, left.group.get? id = some after ∧
    viewOf left id after = applied (viewOf tables id group) operations
  added : ∀ user, user ∈ addedIn events ↔
    user ∉ get_group_user_ids_by_id tables id ∧ user ∈ get_group_user_ids_by_id left id
  removed : ∀ user, user ∈ removedIn events ↔
    user ∈ get_group_user_ids_by_id tables id ∧ user ∉ get_group_user_ids_by_id left id

/-- The lists can be stored; no operation that is ignored has the last word on the name or a user
against those that are heard; and these neither take back a change nor add a member or remove
someone who is none. -/
structure Heeded (tables : Tables known) (id : String) (group : Group) (operations : List Operation) :
    Prop where
  accepted : ∀ operation ∈ operations, operation.Accepted known
  name : (askedNames operations).getLast?.getD group.name =
    (operations.filterMap Operation.heardName).getLast?.getD group.name
  members : ∀ user, (asked user operations).getLast?.getD (begins tables id user) =
    Switch.after (begins tables id user) (orders user operations)
  straight : ∀ user, Switch.Straight (begins tables id user) (orders user operations)

variable {tables : Tables known} {now : Int} {id : String} {group : Group}

theorem mem_addedIn_published (count : Nat) {state : PatchState known} {user : String} :
    user ∈ addedIn (published count state) ↔ user ∈ state.added_member_ids := by
  by_cases added : state.added_member_ids = []
  · by_cases removed : state.removed_member_ids = []
    · simp [addedIn, published, added, removed]
    · simp [addedIn, published, added, removed]
  · by_cases removed : state.removed_member_ids = []
    · simp [addedIn, published, added, removed]
    · simp [addedIn, published, added, removed]

theorem mem_removedIn_published (count : Nat) {state : PatchState known} {user : String} :
    user ∈ removedIn (published count state) ↔ user ∈ state.removed_member_ids := by
  by_cases added : state.added_member_ids = []
  · by_cases removed : state.removed_member_ids = []
    · simp [removedIn, published, added, removed]
    · simp [removedIn, published, added, removed]
  · by_cases removed : state.removed_member_ids = []
    · simp [removedIn, published, added, removed]
    · simp [removedIn, published, added, removed]

theorem Patched.updated {operations : List Operation} {state : PatchState known}
    (patched : Patched tables id group operations state) (now : Int) :
    ∃ after left, update_group_by_id now id ⟨state.name, group.description⟩ state.tables =
        (some after, left) ∧ left.group.get? id = some after ∧
      left.group_member = state.tables.group_member ∧
      after.name = (operations.filterMap Operation.heardName).getLast?.getD group.name := by
  obtain ⟨updated_at, found⟩ := patched.named
  rw [update_group_by_id, found, patched.name]
  exact ⟨_, _, rfl, (Dict.get?_set _ _ _ _).trans (if_pos rfl), rfl, rfl⟩

theorem mem_applied_members {operations : List Operation} {user : String} :
    user ∈ (applied (viewOf tables id group) operations).members ↔
      (asked user operations).getLast?.getD (begins tables id user) = true := by
  refine mem_applied ?_ _
  simp [viewOf, begins]

theorem Patched.inOrder_iff {operations : List Operation} {state : PatchState known}
    (patched : Patched tables id group operations state) {left : Tables known} {after : Group}
    (stored : left.group.get? id = some after)
    (kept : left.group_member = state.tables.group_member)
    (name : after.name = (operations.filterMap Operation.heardName).getLast?.getD group.name)
    (count : Nat) :
    InOrder tables left id group operations (published count state) ↔
      (askedNames operations).getLast?.getD group.name =
          (operations.filterMap Operation.heardName).getLast?.getD group.name ∧
        (∀ user, (asked user operations).getLast?.getD (begins tables id user) =
          Switch.after (begins tables id user) (orders user operations)) ∧
        ∀ user, Switch.Exact (begins tables id user) (orders user operations) := by
  have same : get_group_user_ids_by_id left id = get_group_user_ids_by_id state.tables id := by
    rw [get_group_user_ids_by_id, get_group_user_ids_by_id, kept]
  have members : ∀ user, user ∈ get_group_user_ids_by_id left id ↔
      Switch.after (begins tables id user) (orders user operations) = true := by
    intro user
    rw [same]
    exact patched.members user
  have before : ∀ user, user ∈ get_group_user_ids_by_id tables id ↔ begins tables id user = true := by
    intro user
    rw [begins, decide_eq_true_eq]
  have view : viewOf left id after = applied (viewOf tables id group) operations ↔
      (askedNames operations).getLast?.getD group.name =
          (operations.filterMap Operation.heardName).getLast?.getD group.name ∧
        ∀ user, (asked user operations).getLast?.getD (begins tables id user) =
          Switch.after (begins tables id user) (orders user operations) := by
    have names : (applied (viewOf tables id group) operations).name =
        (askedNames operations).getLast?.getD group.name := name_applied _ _
    rw [GroupView.ext_iff, names, Set.ext_iff]
    refine and_congr ?_ (forall_congr' (fun user => ?_))
    · rw [viewOf, name]
      exact eq_comm
    · refine (iff_congr (members user) mem_applied_members).trans ?_
      rw [← Bool.eq_iff_iff]
      exact eq_comm
  have told_iff : ∀ user, Switch.Exact (begins tables id user) (orders user operations) ↔
      (user ∈ addedIn (published count state) ↔
        user ∉ get_group_user_ids_by_id tables id ∧ user ∈ get_group_user_ids_by_id left id) ∧
      (user ∈ removedIn (published count state) ↔
        user ∈ get_group_user_ids_by_id tables id ∧ user ∉ get_group_user_ids_by_id left id) := by
    intro user
    rw [Switch.Exact, Bool.forall_bool, mem_addedIn_published, mem_removedIn_published,
      patched.added, patched.removed, members, before]
    simp only [ne_eq, Bool.not_eq_true, Bool.not_eq_false]
    exact and_comm
  constructor
  · rintro ⟨⟨found, again, viewed⟩, added, removed⟩
    rw [stored] at again
    rw [← Option.some.inj again] at viewed
    obtain ⟨names, asked_heard⟩ := view.mp viewed
    exact ⟨names, asked_heard, fun user => (told_iff user).mpr ⟨added user, removed user⟩⟩
  · rintro ⟨names, asked_heard, told⟩
    refine ⟨⟨after, stored, view.mpr ⟨names, asked_heard⟩⟩, fun user => ?_, fun user => ?_⟩
    · exact ((told_iff user).mp (told user)).1
    · exact ((told_iff user).mp (told user)).2

theorem Patched.ends (found : tables.group.get? id = some group) {operations : List Operation}
    {state : PatchState known} (ran : (operations.map Operation.written).foldlM (patch_operation now id)
      ⟨tables, .str group.name, [], []⟩ = .ok state)
    (patched : Patched tables id group operations state) :
    ∃ after left, patch_group now id (operations.map Operation.written) tables =
        (left, .ok (published operations.length state)) ∧
      left.group.get? id = some after ∧ left.group_member = state.tables.group_member ∧
      after.name = (operations.filterMap Operation.heardName).getLast?.getD group.name := by
  obtain ⟨after, left, updated, stored, kept, name⟩ := patched.updated now
  refine ⟨after, left, ?_, stored, kept, name⟩
  rw [patch_group, found]
  simp only [ran, updated, List.length_map]

theorem heeded_of_inOrder (found : tables.group.get? id = some group) {operations : List Operation}
    {left : Tables known} {events : List Event}
    (done : patch_group now id (operations.map Operation.written) tables = (left, .ok events))
    (order : InOrder tables left id group operations events) : Heeded tables id group operations := by
  -- the run itself did not fail, and announced nobody that is no user
  cases ran : (operations.map Operation.written).foldlM (patch_operation now id)
      ⟨tables, .str group.name, [], []⟩ with
  | error failed =>
    rw [patch_group, found] at done
    simp [ran] at done
  | ok state =>
    have published_events : events = published operations.length state := by
      rw [patch_group, found] at done
      simp only [ran, List.length_map] at done
      split at done
      · cases done
      · exact (Except.ok.inj (Prod.mk.inj done).2).symm
    have honest : ∀ user ∈ state.added_member_ids, known user = true := by
      intro user added
      rw [← mem_addedIn_published operations.length, ← published_events] at added
      exact known_of_member ((order.added user).mp added).2
    have accepted := (run_accepted ran honest).2
    obtain ⟨again, ran_again, patched⟩ := @patched_run _ _ now _ _ found _ accepted
    rw [ran] at ran_again
    cases ran_again
    obtain ⟨after, updated, done_again, stored, kept, name⟩ := patched.ends found ran
    rw [done] at done_again
    cases done_again
    obtain ⟨names, members, told⟩ := (patched.inOrder_iff stored kept name _).mp order
    exact ⟨accepted, names, members, fun user => Switch.exact_iff_straight.mp (told user)⟩

/-- When the patch is the sequential application of its operations. -/
theorem patch_in_order_iff (found : tables.group.get? id = some group) (now : Int)
    (operations : List Operation) :
    (∃ left events, patch_group now id (operations.map Operation.written) tables =
        (left, .ok events) ∧ InOrder tables left id group operations events) ↔
      Heeded tables id group operations := by
  constructor
  · rintro ⟨left, events, done, order⟩
    exact heeded_of_inOrder found done order
  · intro heeded
    obtain ⟨state, ran, patched⟩ := @patched_run _ _ now _ _ found _ heeded.accepted
    obtain ⟨after, left, done, stored, kept, name⟩ := patched.ends found ran
    refine ⟨left, _, done, (patched.inOrder_iff stored kept name _).mpr ?_⟩
    refine ⟨heeded.name, heeded.members, fun user => ?_⟩
    exact Switch.exact_iff_straight.mpr (heeded.straight user)

end Patch

def addAndRename : List Operation := [.members .add [⟨"new", []⟩], .displayName .replace "Crew"]

theorem orders_of_other {user : String} (other : user ≠ "new") : orders user addAndRename = [] := by
  simp [addAndRename, ids, other, orders, Operation.heard]

theorem addition_in_order : ∃ left events,
    patch_group 1 "team" (addAndRename.map Operation.written) oneMember = (left, .ok events) ∧
      InOrder oneMember left "team" ⟨"Team", "", 0⟩ addAndRename events := by
  refine (patch_in_order_iff rfl 1 addAndRename).mpr ⟨?_, by decide, ?_, ?_⟩
  · intro operation listed
    simp only [addAndRename, List.mem_cons, List.not_mem_nil, or_false] at listed
    rcases listed with rfl | rfl
    · exact fun _ _ => rfl
    · exact trivial
  · intro user
    by_cases new : user = "new"
    · subst new
      decide
    · rw [orders_of_other new]
      simp [addAndRename, asked, Operation.changes, Verb.change, Change.tells, ids, new]
  · intro user
    by_cases new : user = "new"
    · subst new
      constructor
      · decide
      · exact List.pairwise_singleton _ _
    · rw [orders_of_other new]
      exact ⟨fun _ listed => (List.not_mem_nil listed).elim, List.Pairwise.nil⟩

def addWithoutPath : List Operation := [.object .add ⟨none, some [⟨"new", []⟩], []⟩]

/-- Attributes without a path are ignored. -/
theorem attributes_ignored : ¬ ∀ (tables : Tables (fun _ => true)) (id : String) (group : Group)
    (operations : List Operation), tables.group.get? id = some group → ∃ left events,
      patch_group 1 id (operations.map Operation.written) tables = (left, .ok events) ∧
        InOrder tables left id group operations events := by
  intro order
  obtain ⟨left, events, done, in_order⟩ := order oneMember "team" ⟨"Team", "", 0⟩ addWithoutPath rfl
  have silent := (heeded_of_inOrder rfl done in_order).members "new"
  revert silent
  decide

end OpenWebui.Groups
