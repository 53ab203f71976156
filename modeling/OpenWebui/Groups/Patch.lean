import Mathlib.Data.List.Dedup
import OpenWebui.Base.Json
import OpenWebui.Groups.Members

/-! The other operations on the members of a group, and the SCIM patch of a group. -/

namespace OpenWebui.Groups

/-- The form of an update; a name that is assigned later is not checked. -/
structure GroupUpdateForm where
  name : Json
  description : String

structure SCIMPatchOperation where
  op : String
  path : Option String
  value : Json

inductive PatchError where
  | raised (error : PyError)
  | integrityError
  | notFound
  | failedToUpdate

inductive Event where
  | GROUP_UPDATED (operation_count : Nat)
  | GROUP_MEMBER_ADDED (member_ids : List String) (count : Nat)
  | GROUP_MEMBER_REMOVED (member_ids : List String) (count : Nat)

section Functions

variable {known : String → Bool}

def insert_members (group_id : String) (table : MemberTable known) (user_ids : List String) :
    Option (MemberTable known) :=
  user_ids.foldlM (fun table user_id => table.insert? ⟨group_id, user_id⟩) table

def set_group_user_ids_by_id (group_id : String) (user_ids : List String) (tables : Tables known) :
    Option (Tables known) :=
  let deleted := tables.group_member.delete (fun row => decide (row.group_id = group_id))
  (insert_members group_id deleted user_ids).map (fun rows => { tables with group_member := rows })

def remove_users_from_group (now : Int) (id : String) (user_ids : Option (List String))
    (tables : Tables known) : Option Group × Tables known :=
  match tables.group.get? id with
  | none => (none, tables)
  | some group =>
    if user_ids.getD [] = [] then (some group, tables)
    else
      let updated := { group with updated_at := now }
      (some updated,
        { group := tables.group.set id updated
          group_member := tables.group_member.delete (fun row =>
            decide (row.group_id = id ∧ row.user_id ∈ user_ids.getD [])) })

def update_group_by_id (now : Int) (id : String) (form_data : GroupUpdateForm)
    (tables : Tables known) : Option Group × Tables known :=
  match tables.group.get? id, form_data.name with
  | none, _ => (none, tables)
  | some _, .str name =>
    let updated := ⟨name, form_data.description, now⟩
    (some updated, { tables with group := tables.group.set id updated })
  | some group, .null =>
    let updated := ⟨group.name, form_data.description, now⟩
    (some updated, { tables with group := tables.group.set id updated })
  | some _, _ => (none, tables)

/-- `sorted(set(ids))`. -/
def sortedSet (ids : List String) : List String :=
  ids.dedup.mergeSort (fun first second => decide (first ≤ second))

structure PatchState (known : String → Bool) where
  tables : Tables known
  name : Json
  added_member_ids : List String
  removed_member_ids : List String

/-- `member['value']`; an id that is no text is refused by the database. -/
def member_value (member : Json) : Except PyError String :=
  match member with
  | .obj fields =>
    match fields.lookup "value" with
    | none => .error .keyError
    | some (.str value) => .ok value
    | some _ => .error .typeError
  | _ => .error .typeError

def member_values (value : Json) : Except PyError (List String) := do
  (← value.iterate).mapM member_value

def replace_members (group_id : String) (state : PatchState known) (value : Json) :
    Except (PatchError × Tables known) (PatchState known) :=
  let old_member_ids := get_group_user_ids_by_id state.tables group_id
  match member_values value with
  | .error error => .error (.raised error, state.tables)
  | .ok new_member_ids =>
    match set_group_user_ids_by_id group_id new_member_ids state.tables with
    | none => .error (.integrityError, state.tables)
    | some tables =>
      .ok { state with
        tables := tables
        added_member_ids := state.added_member_ids ++
          sortedSet (new_member_ids.filter (fun user => decide (user ∉ old_member_ids)))
        removed_member_ids := state.removed_member_ids ++
          sortedSet (old_member_ids.filter (fun user => decide (user ∉ new_member_ids))) }

def add_member (now : Int) (group_id : String) (state : PatchState known) (member : Json) :
    Except (PatchError × Tables known) (PatchState known) :=
  match member with
  | .obj fields =>
    match fields.lookup "value" with
    | none => .ok state
    | some (.str user_id) =>
      .ok { state with
        tables := (add_users_to_group now group_id (some [user_id]) state.tables).2
        added_member_ids := state.added_member_ids ++ [user_id] }
    | some _ => .error (.raised .typeError, state.tables)
  | _ => .ok state

def remove_member (now : Int) (group_id : String) (state : PatchState known) (path : String) :
    Except (PatchError × Tables known) (PatchState known) :=
  match (path.toList.splitOn '"')[1]? with
  | none => .error (.raised .indexError, state.tables)
  | some part =>
    let member_id := String.ofList part
    .ok { state with
      tables := (remove_users_from_group now group_id (some [member_id]) state.tables).2
      removed_member_ids := state.removed_member_ids ++ [member_id] }

def memberFilter : List Char := "members[value eq".toList

/-- `op.lower()`; only ASCII letters become the letters of an operation. -/
def lower (op : String) : String := String.ofList (op.toList.map Char.toLower)

def patch_operation (now : Int) (group_id : String) (state : PatchState known)
    (operation : SCIMPatchOperation) : Except (PatchError × Tables known) (PatchState known) :=
  let op := lower operation.op
  if op = "replace" then
    if operation.path = some "displayName" then .ok { state with name := operation.value }
    else if operation.path = some "members" then replace_members group_id state operation.value
    else .ok state
  else if op = "add" then
    match operation.path, operation.value with
    | some "members", .arr members => members.foldlM (add_member now group_id) state
    | _, _ => .ok state
  else if op = "remove" then
    match operation.path with
    | none => .ok state
    | some path =>
      if memberFilter.isPrefixOf path.toList then
        remove_member now group_id state path
      else .ok state
  else .ok state

def published (operation_count : Nat) (state : PatchState known) : List Event :=
  let added := sortedSet state.added_member_ids
  let removed := sortedSet state.removed_member_ids
  .GROUP_UPDATED operation_count ::
    ((if state.added_member_ids = [] then [] else [.GROUP_MEMBER_ADDED added added.length]) ++
      (if state.removed_member_ids = [] then [] else [.GROUP_MEMBER_REMOVED removed removed.length]))

def patch_group (now : Int) (group_id : String) (operations : List SCIMPatchOperation)
    (tables : Tables known) : Tables known × Except PatchError (List Event) :=
  match tables.group.get? group_id with
  | none => (tables, .error .notFound)
  | some group =>
    match operations.foldlM (patch_operation now group_id) ⟨tables, .str group.name, [], []⟩ with
    | .error (error, left) => (left, .error error)
    | .ok state =>
      match update_group_by_id now group_id ⟨state.name, group.description⟩ state.tables with
      | (none, left) => (left, .error .failedToUpdate)
      | (some _, left) => (left, .ok (published operations.length state))

end Functions

section Members

variable {known : String → Bool} {tables : Tables known} {id : String} {user : String}

/-- A group with a name and a description. -/
def Named (tables : Tables known) (id name description : String) : Prop :=
  ∃ updated_at, tables.group.get? id = some ⟨name, description, updated_at⟩

theorem delete_rows {table : MemberTable known} {drop : GroupMember → Bool} {row : GroupMember} :
    row ∈ (table.delete drop).rows ↔ row ∈ table.rows ∧ drop row = false := by
  rw [MemberTable.delete, List.mem_filter, Bool.not_eq_true']

theorem mem_added_one {now : Int} {name description : String} (named : Named tables id name description)
    {added : String} (accepted : known added = true) :
    user ∈ get_group_user_ids_by_id (add_users_to_group now id (some [added]) tables).2 id ↔
      user ∈ get_group_user_ids_by_id tables id ∨ user = added := by
  obtain ⟨updated_at, found⟩ := named
  by_cases member : added ∈ get_group_user_ids_by_id tables id
  · have refused : FallsInto known (get_group_user_ids_by_id tables id) [added] [⟨[], added⟩] [] := by
      refine ⟨rfl, ?_, .nil⟩
      intro stretch only
      rw [List.mem_singleton.mp only]
      exact ⟨.nil, .inl member⟩
    rw [@mem_added _ _ _ _ (some [added]) _ _ _ found refused]
    constructor
    · rintro (old | nobody)
      · exact .inl old
      · cases nobody
    · rintro (old | rfl)
      · exact .inl old
      · exact .inl member
  · have taken : FallsInto known (get_group_user_ids_by_id tables id) [added] [] [added] :=
      ⟨rfl, by simp, Fresh.nil.concat (by simp) member accepted⟩
    rw [@mem_added _ _ _ _ (some [added]) _ _ _ found taken, List.mem_singleton]

theorem named_added {now : Int} {name description : String} (named : Named tables id name description)
    (user_ids : Option (List String)) :
    Named (add_users_to_group now id user_ids tables).2 id name description := by
  obtain ⟨updated_at, found⟩ := named
  refine ⟨now, ?_⟩
  rw [add_users_to_group, found]
  exact (Dict.get?_set _ _ _ _).trans (if_pos rfl)

theorem mem_removed {now : Int} {name description : String} (named : Named tables id name description)
    {removed : String} :
    user ∈ get_group_user_ids_by_id (remove_users_from_group now id (some [removed]) tables).2 id ↔
      user ∈ get_group_user_ids_by_id tables id ∧ user ≠ removed := by
  obtain ⟨updated_at, found⟩ := named
  rw [mem_group_user_ids, mem_group_user_ids, remove_users_from_group, found]
  simp [delete_rows]

theorem named_removed {now : Int} {name description : String}
    (named : Named tables id name description) (removed : String) :
    Named (remove_users_from_group now id (some [removed]) tables).2 id name description := by
  obtain ⟨updated_at, found⟩ := named
  refine ⟨now, ?_⟩
  rw [remove_users_from_group, found]
  exact (Dict.get?_set _ _ _ _).trans (if_pos rfl)

theorem insert_members_rows {table inserted : MemberTable known} {user_ids : List String}
    (done : insert_members id table user_ids = some inserted) :
    inserted.rows = table.rows ++ user_ids.map (fun user => ⟨id, user⟩) := by
  induction user_ids generalizing table with
  | nil =>
    cases done
    exact (List.append_nil _).symm
  | cons user rest ih =>
    rw [insert_members, List.foldlM_cons] at done
    obtain ⟨next, taken, later⟩ := Option.bind_eq_some_iff.mp done
    have rows : next.rows = table.rows ++ [⟨id, user⟩] := by
      rw [MemberTable.insert?] at taken
      split at taken
      · cases taken
        rfl
      · cases taken
    rw [ih later, rows, List.append_assoc]
    rfl

theorem insert_members_done {table : MemberTable known} {user_ids : List String}
    (distinct : user_ids.Nodup) (new : ∀ user ∈ user_ids, ⟨id, user⟩ ∉ table.rows)
    (accepted : ∀ user ∈ user_ids, known user = true) :
    ∃ inserted, insert_members id table user_ids = some inserted := by
  induction user_ids generalizing table with
  | nil => exact ⟨table, rfl⟩
  | cons user rest ih =>
    obtain ⟨next, taken, rows⟩ := MemberTable.insert?_new (new user List.mem_cons_self)
      (accepted user List.mem_cons_self)
    obtain ⟨inserted, done⟩ := @ih next (List.nodup_cons.mp distinct).2 (by
      intro other listed stored
      rw [rows, List.mem_append, List.mem_singleton] at stored
      rcases stored with old | same
      · exact new other (List.mem_cons_of_mem _ listed) old
      · cases same
        exact (List.nodup_cons.mp distinct).1 listed)
      (fun other listed => accepted other (List.mem_cons_of_mem _ listed))
    refine ⟨inserted, ?_⟩
    rw [insert_members, List.foldlM_cons, taken]
    exact done

theorem set_members_iff {user_ids : List String} :
    (∃ left, set_group_user_ids_by_id id user_ids tables = some left) ↔
      user_ids.Nodup ∧ ∀ user ∈ user_ids, known user = true := by
  rw [set_group_user_ids_by_id]
  constructor
  · rintro ⟨left, done⟩
    obtain ⟨inserted, taken, -⟩ := Option.map_eq_some_iff.mp done
    have rows := insert_members_rows taken
    constructor
    · have distinct := inserted.unique
      rw [rows, List.nodup_append] at distinct
      exact List.Nodup.of_map _ distinct.2.1
    · intro user listed
      refine inserted.referenced ⟨id, user⟩ ?_
      rw [rows]
      exact List.mem_append_right _ (List.mem_map.mpr ⟨user, listed, rfl⟩)
  · rintro ⟨distinct, accepted⟩
    obtain ⟨inserted, done⟩ := @insert_members_done _ id
      (tables.group_member.delete (fun row => decide (row.group_id = id))) _ distinct
      (by
        intro user _ stored
        have other := (delete_rows.mp stored).2
        simp at other)
      accepted
    exact ⟨_, Option.map_eq_some_iff.mpr ⟨inserted, done, rfl⟩⟩

theorem mem_set_members {user_ids : List String} {left : Tables known}
    (done : set_group_user_ids_by_id id user_ids tables = some left) :
    left.group = tables.group ∧
      ∀ user, user ∈ get_group_user_ids_by_id left id ↔ user ∈ user_ids := by
  obtain ⟨inserted, taken, rfl⟩ := Option.map_eq_some_iff.mp done
  refine ⟨rfl, fun user => ?_⟩
  rw [mem_group_user_ids, insert_members_rows taken, List.mem_append, delete_rows]
  simp

end Members

end OpenWebui.Groups
