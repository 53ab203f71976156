import OpenWebui.AccessGrants.Queries
import OpenWebui.Base.Sequence
import OpenWebui.Base.Text

/-! `OAuthManager.update_user_groups`: the groups of a user are brought in line with a claim of the
token, past the groups that patterns block. -/

namespace OpenWebui.OAuth

open AccessGrants (GroupMember)

/-- A group row. The creator, the data and the times are left out. -/
structure Group where
  name : String
  description : String
  permissions : Option Fields
  deriving DecidableEq

structure GroupTables where
  group : Dict String Group
  group_member : List GroupMember

/-- What `re.search` answers; only `re.error` is caught. -/
inductive SearchResult where
  | answer (found : Bool)
  | error
  | raises (exception : PyError)

structure GroupConfig where
  OAUTH_GROUPS_CLAIM : String
  OAUTH_GROUPS_SEPARATOR : String
  ENABLE_OAUTH_GROUP_CREATION : Bool
  blocked_groups : List String
  default_permissions : Option Fields

structure NewIds (tables : GroupTables) where
  uuid : Nat → String
  distinct : ∀ first second, uuid first = uuid second → first = second
  fresh : ∀ place, uuid place ∉ tables.group.keys
  unused : ∀ place, ∀ member ∈ tables.group_member, member.group_id ≠ uuid place

section Blocked

variable (search : String → String → SearchResult) (fnmatch : String → String → Bool)

def regexCharacters : List Char := ['^', '$', '[', ']', '(', ')', '\x7b', '\x7d', '+', '\\', '|']

def wildcardMatch (group_name group_pattern : String) : Bool :=
  (decide ('*' ∈ group_pattern.toList) || decide ('?' ∈ group_pattern.toList)) &&
    fnmatch group_name group_pattern

def matchesPattern (group_name group_pattern : String) : Except PyError Bool :=
  if group_pattern = "" then .ok false
  else if group_name = group_pattern then .ok true
  else if group_pattern.toList.any (fun char => decide (char ∈ regexCharacters)) then
    match search group_pattern group_name with
    | .answer true => .ok true
    | .answer false => .ok (wildcardMatch fnmatch group_name group_pattern)
    | .error => .ok (wildcardMatch fnmatch group_name group_pattern)
    | .raises exception => .error exception
  else .ok (wildcardMatch fnmatch group_name group_pattern)

def is_in_blocked_groups (group_name : String) : List String → Except PyError Bool
  | [] => .ok false
  | group_pattern :: groups => do
    if ← matchesPattern search fnmatch group_name group_pattern then .ok true
    else is_in_blocked_groups group_name groups

end Blocked

/-- `claim_data = claim_data.get(nested_claim, {})` along the path. -/
def nestedClaim : Json → List String → Except PyError Json
  | claim_data, [] => .ok claim_data
  | .obj fields, nested_claim :: rest =>
    nestedClaim ((fields.lookup nested_claim).getD (.obj [])) rest
  | _, _ :: _ => .error .attributeError

/-- `claim_data.split(separator)`, when the separator is in it. -/
def splitClaim (separator claim_data : String) : Except PyError (List Json) :=
  if separator = "" then .error .valueError
  else .ok ((claim_data.splitOn separator).map Json.str)

/-- `oauth_claim.split('.')`. -/
def nestedClaims (oauth_claim : String) : List String :=
  (Text.split '.' oauth_claim.toList).map String.ofList

def userOauthGroups (config : GroupConfig) (user_data : Json) : Except PyError (List Json) :=
  if config.OAUTH_GROUPS_CLAIM = "" then .ok []
  else do
    match ← nestedClaim user_data (nestedClaims config.OAUTH_GROUPS_CLAIM) with
    | .arr items => .ok items
    | .str text => splitClaim config.OAUTH_GROUPS_SEPARATOR text
    | _ => .ok []

def groupNames (tables : GroupTables) : List String :=
  tables.group.entries.map (fun row => row.2.name)

/-- `Groups.get_groups_by_member_id`. -/
def get_groups_by_member_id (tables : GroupTables) (user_id : String) : List (String × Group) :=
  tables.group.entries.filter (fun row =>
    tables.group_member.any (fun member =>
      decide (member.group_id = row.1) && decide (member.user_id = user_id)))

/-- `Groups.remove_users_from_group`. -/
def remove_users_from_group (tables : GroupTables) (id : String) (user_ids : List String) :
    GroupTables :=
  if id ∈ tables.group.keys then
    { tables with group_member := tables.group_member.filter (fun member =>
        !(decide (member.group_id = id) && decide (member.user_id ∈ user_ids))) }
  else tables

/-- `Groups.add_users_to_group`. -/
def add_users_to_group (tables : GroupTables) (id : String) (user_ids : List String) :
    GroupTables :=
  if id ∈ tables.group.keys then
    { tables with group_member := tables.group_member ++ user_ids.map (GroupMember.mk id) }
  else tables

/-- `Groups.update_group_by_id` without overwriting: what is absent stays. -/
def update_group_by_id (tables : GroupTables) (id : String) (form_data : Group) : GroupTables :=
  { tables with group := tables.group.modify id (fun row =>
      { form_data with permissions := form_data.permissions.or row.permissions }) }

def permissionsOf (default_permissions : Option Fields) (group_model : Group) : Option Fields :=
  (group_model.permissions.filter (fun permissions => !permissions.isEmpty)).or default_permissions

def keepPermissions (default_permissions : Option Fields) (tables : GroupTables)
    (group_model : String × Group) : GroupTables :=
  update_group_by_id tables group_model.1
    { group_model.2 with permissions := permissionsOf default_permissions group_model.2 }

def description (group_name : String) : String :=
  "Group '" ++ group_name ++ "' created automatically via OAuth."

/-- One name of the claim in the creation of missing groups, with the number of groups that were
created. The names known are those of the rows. -/
def createGroup (uuid : Nat → String) (default_permissions : Option Fields)
    (state : GroupTables × Nat) (group_name : Json) : Except PyError (GroupTables × Nat) :=
  match group_name with
  | .str name =>
    if name ∈ groupNames state.1 then .ok state
    else
      let row := ⟨name, description name, default_permissions⟩
      .ok ({ state.1 with group := state.1.group.set (uuid state.2) row }, state.2 + 1)
  -- a name that is no text is refused by the form
  | other => if other.hashable then .ok state else .error .typeError

def createMissing (uuid : Nat → String) (config : GroupConfig) (user_oauth_groups : List Json)
    (tables : GroupTables) : Except PyError (GroupTables × Nat) :=
  if config.ENABLE_OAUTH_GROUP_CREATION then
    user_oauth_groups.foldlM (createGroup uuid config.default_permissions) (tables, 0)
  else .ok (tables, 0)

section Update

variable (search : String → String → SearchResult) (fnmatch : String → String → Bool)
  (config : GroupConfig) (user_oauth_groups : List Json)

def notBlocked (name : String) : Except PyError Bool :=
  (is_in_blocked_groups search fnmatch name config.blocked_groups).map (fun blocked => !blocked)

def leaves (group_model : String × Group) : Except PyError Bool :=
  if user_oauth_groups ≠ [] ∧ Json.str group_model.2.name ∉ user_oauth_groups then
    notBlocked search fnmatch config group_model.2.name
  else .ok false

def joins (user_current_groups : List (String × Group)) (group_model : String × Group) :
    Except PyError Bool :=
  if user_oauth_groups ≠ [] ∧ Json.str group_model.2.name ∈ user_oauth_groups ∧
      ¬ user_current_groups.any (fun current => decide (current.2.name = group_model.2.name)) then
    notBlocked search fnmatch config group_model.2.name
  else .ok false

def leaveGroup (user_id : String) (tables : GroupTables) (group_model : String × Group) :
    GroupTables :=
  keepPermissions config.default_permissions
    (remove_users_from_group tables group_model.1 [user_id]) group_model

def joinGroup (user_id : String) (tables : GroupTables) (group_model : String × Group) :
    GroupTables :=
  keepPermissions config.default_permissions
    (add_users_to_group tables group_model.1 [user_id]) group_model

end Update

def update_user_groups (search : String → String → SearchResult)
    (fnmatch : String → String → Bool) (config : GroupConfig) (user_id : String)
    (user_data : Json) (tables : GroupTables) (ids : NewIds tables) :
    Except PyError GroupTables := do
  let user_oauth_groups ← userOauthGroups config user_data
  let user_current_groups := get_groups_by_member_id tables user_id
  let (created, _) ← createMissing ids.uuid config user_oauth_groups tables
  let all_available_groups := created.group.entries
  let removed ← user_current_groups.foldlM
    (Guarded.turn (leaves search fnmatch config user_oauth_groups) (leaveGroup config user_id))
    created
  all_available_groups.foldlM
    (Guarded.turn (joins search fnmatch config user_oauth_groups user_current_groups)
      (joinGroup config user_id))
    removed

/-- A membership row of the user in the group. -/
def Belongs (tables : GroupTables) (id user_id : String) : Prop :=
  ∃ member ∈ tables.group_member, member.group_id = id ∧ member.user_id = user_id

/-- No two groups have a name in common. -/
def DistinctNames (tables : GroupTables) : Prop :=
  ∀ first second one two, tables.group.get? first = some one → tables.group.get? second = some two →
    one.name = two.name → first = second

def claimAt : Json → List String → Option Json
  | value, [] => some value
  | .obj fields, key :: rest => (fields.lookup key).bind (fun value => claimAt value rest)
  | _, _ :: _ => none

/-- The claim is in the token, as a list of texts. -/
def ClaimPresent (config : GroupConfig) (user_data : Json) (names : List String) : Prop :=
  config.OAUTH_GROUPS_CLAIM ≠ "" ∧
    claimAt user_data (nestedClaims config.OAUTH_GROUPS_CLAIM) = some (.arr (names.map Json.str))

instance (config : GroupConfig) (user_data : Json) (names : List String) :
    Decidable (ClaimPresent config user_data names) := inferInstanceAs (Decidable (_ ∧ _))

theorem nestedClaim_of_claimAt {path : List String} {value found : Json}
    (present : claimAt value path = some found) : nestedClaim value path = .ok found := by
  induction path generalizing value with
  | nil =>
    obtain rfl := Option.some.inj present
    cases value <;> rfl
  | cons key rest ih =>
    cases value with
    | obj fields =>
      obtain ⟨inner, stored, later⟩ := Option.bind_eq_some_iff.mp present
      rw [nestedClaim, stored]
      exact ih later
    | null => cases present
    | bool _ => cases present
    | num _ => cases present
    | str _ => cases present
    | arr _ => cases present

theorem userOauthGroups_of_present {config : GroupConfig} {user_data : Json} {names : List String}
    (present : ClaimPresent config user_data names) :
    userOauthGroups config user_data = .ok (names.map Json.str) := by
  rw [userOauthGroups, if_neg present.1, nestedClaim_of_claimAt present.2]
  rfl

theorem str_mem_map {name : String} {names : List String} :
    Json.str name ∈ names.map Json.str ↔ name ∈ names := by
  simp [List.mem_map]

theorem mem_groupNames {tables : GroupTables} {name : String} :
    name ∈ groupNames tables ↔ ∃ id group, tables.group.get? id = some group ∧ group.name = name := by
  rw [groupNames, List.mem_map]
  constructor
  · rintro ⟨⟨id, group⟩, member, same⟩
    exact ⟨id, group, Dict.mem_entries_iff.mp member, same⟩
  · rintro ⟨id, group, found, same⟩
    exact ⟨(id, group), Dict.mem_entries_iff.mpr found, same⟩

theorem mem_get_groups_by_member_id {tables : GroupTables} {user_id id : String} {group : Group} :
    (id, group) ∈ get_groups_by_member_id tables user_id ↔
      tables.group.get? id = some group ∧ Belongs tables id user_id := by
  rw [get_groups_by_member_id, List.mem_filter, Dict.mem_entries_iff, List.any_eq_true]
  simp only [Bool.and_eq_true, decide_eq_true_eq, Belongs]

/-- The tables with groups added that no one is in. -/
structure Extended (names : List String) (tables created : GroupTables) : Prop where
  members : created.group_member = tables.group_member
  kept : ∀ id group, tables.group.get? id = some group → created.group.get? id = some group
  new : ∀ id group, created.group.get? id = some group → tables.group.get? id = some group ∨
    (tables.group.get? id = none ∧ (∀ user_id, ¬ Belongs tables id user_id) ∧
      group.name ∈ names ∧ group.name ∉ groupNames tables)
  distinct : DistinctNames created

theorem extended_self {tables : GroupTables} (distinct : DistinctNames tables)
    (names : List String) : Extended names tables tables :=
  ⟨rfl, fun _ _ found => found, fun _ _ found => Or.inl found, distinct⟩

/-- The rows beyond the old ones have the ids generated so far. -/
def Generated {tables : GroupTables} (ids : NewIds tables) (state : GroupTables × Nat) : Prop :=
  ∀ id ∈ state.1.group.keys, id ∈ tables.group.keys ∨ ∃ place < state.2, id = ids.uuid place

theorem createGroup_extended {names : List String} {tables : GroupTables} (ids : NewIds tables)
    (default_permissions : Option Fields) {state : GroupTables × Nat}
    (extended : Extended names tables state.1) (generated : Generated ids state) {name : String}
    (member : name ∈ names) :
    ∃ next, createGroup ids.uuid default_permissions state (.str name) = .ok next ∧
      Extended names tables next.1 ∧ Generated ids next ∧
        (∀ other ∈ groupNames state.1, other ∈ groupNames next.1) ∧ name ∈ groupNames next.1 := by
  rw [createGroup]
  by_cases known : name ∈ groupNames state.1
  · rw [if_pos known]
    exact ⟨state, rfl, extended, generated, fun _ listed => listed, known⟩
  · rw [if_neg known]
    have unused : ids.uuid state.2 ∉ state.1.group.keys := by
      intro used
      rcases generated _ used with old | ⟨place, before, same⟩
      · exact ids.fresh _ old
      · have := ids.distinct _ _ same
        omega
    have absent : state.1.group.get? (ids.uuid state.2) = none := Dict.get?_eq_none.mpr unused
    have old_name : ∀ id group, state.1.group.get? id = some group → group.name ≠ name :=
      fun id group found same => known (mem_groupNames.mpr ⟨id, group, found, same⟩)
    refine ⟨_, rfl, ⟨extended.members, ?_, ?_, ?_⟩, ?_, ?_, ?_⟩
    · intro id group found
      have stored := extended.kept id group found
      rw [Dict.get?_set, if_neg]
      · exact stored
      · rintro rfl
        rw [absent] at stored
        cases stored
    · intro id group found
      rw [Dict.get?_set] at found
      split at found
      · rename_i same
        obtain rfl := Option.some.inj found
        subst same
        refine Or.inr ⟨Dict.get?_eq_none.mpr (ids.fresh _), ?_, member, ?_⟩
        · rintro user_id ⟨row, stored, same, _⟩
          exact ids.unused _ row stored same
        · intro listed
          obtain ⟨id, group, found, same⟩ := mem_groupNames.mp listed
          exact old_name id group (extended.kept id group found) same
      · exact extended.new id group found
    · intro first second one two found other same
      rw [Dict.get?_set] at found other
      split at found
      · rename_i here
        obtain rfl := Option.some.inj found
        split at other
        · rename_i there
          exact here.symm.trans there
        · exact absurd same.symm (old_name second two other)
      · split at other
        · obtain rfl := Option.some.inj other
          exact absurd same (old_name first one found)
        · exact extended.distinct first second one two found other same
    · intro id inside
      rcases Dict.mem_keys_set.mp inside with rfl | old
      · exact Or.inr ⟨state.2, Nat.lt_succ_self _, rfl⟩
      · rcases generated id old with before | ⟨place, earlier, same⟩
        · exact Or.inl before
        · exact Or.inr ⟨place, Nat.lt_succ_of_lt earlier, same⟩
    · intro other listed
      obtain ⟨id, group, found, same⟩ := mem_groupNames.mp listed
      refine mem_groupNames.mpr ⟨id, group, ?_, same⟩
      rw [Dict.get?_set, if_neg]
      · exact found
      · rintro rfl
        rw [absent] at found
        cases found
    · exact mem_groupNames.mpr ⟨ids.uuid state.2, _, by rw [Dict.get?_set, if_pos rfl], rfl⟩

theorem createGroups_extended {names : List String} {tables : GroupTables} (ids : NewIds tables)
    (default_permissions : Option Fields) {todo : List String}
    (listed : ∀ name ∈ todo, name ∈ names) {state : GroupTables × Nat}
    (extended : Extended names tables state.1) (generated : Generated ids state) :
    ∃ next, (todo.map Json.str).foldlM (createGroup ids.uuid default_permissions) state = .ok next ∧
      Extended names tables next.1 ∧
        (∀ other ∈ groupNames state.1, other ∈ groupNames next.1) ∧
          ∀ name ∈ todo, name ∈ groupNames next.1 := by
  induction todo generalizing state with
  | nil => exact ⟨state, rfl, extended, fun _ known => known, by simp⟩
  | cons name rest ih =>
    obtain ⟨next, created, extended, generated, kept, known⟩ :=
      createGroup_extended ids default_permissions extended generated (listed name (by simp))
    obtain ⟨final, looped, extended, carried, rest_known⟩ :=
      ih (fun other member => listed other (List.mem_cons_of_mem name member)) extended generated
    refine ⟨final, ?_, extended, fun other member => carried other (kept other member), ?_⟩
    · rw [List.map_cons, List.foldlM_cons, created]
      exact looped
    · intro other member
      rcases List.mem_cons.mp member with rfl | later
      · exact carried other known
      · exact rest_known other later

theorem createGroups_known {uuid : Nat → String} {default_permissions : Option Fields}
    {todo : List String} {state : GroupTables × Nat}
    (known : ∀ name ∈ todo, name ∈ groupNames state.1) :
    (todo.map Json.str).foldlM (createGroup uuid default_permissions) state = .ok state := by
  induction todo with
  | nil => rfl
  | cons name rest ih =>
    rw [List.map_cons, List.foldlM_cons, createGroup, if_pos (known name (by simp))]
    exact ih (fun other member => known other (List.mem_cons_of_mem name member))

/-- The table has the group under the name it was read with. -/
def Current (tables : GroupTables) (group_model : String × Group) : Prop :=
  (tables.group.get? group_model.1).map Group.name = some group_model.2.name

/-- The groups of both tables and their names. -/
def SameNames (first second : GroupTables) : Prop :=
  ∀ id, (first.group.get? id).map Group.name = (second.group.get? id).map Group.name

theorem mem_keys_of_current {tables : GroupTables} {group_model : String × Group}
    (current : Current tables group_model) : group_model.1 ∈ tables.group.keys := by
  obtain ⟨group, found, _⟩ := Option.map_eq_some_iff.mp current
  exact Dict.mem_keys_of_get? found

theorem keepPermissions_names (default_permissions : Option Fields) {tables : GroupTables}
    {group_model : String × Group} (current : Current tables group_model) :
    SameNames (keepPermissions default_permissions tables group_model) tables := by
  intro id
  rw [keepPermissions, update_group_by_id, Dict.get?_modify]
  split
  · rename_i same
    subst same
    rw [Option.map_map]
    obtain ⟨group, found, named⟩ := Option.map_eq_some_iff.mp current
    rw [found, Option.map_some, Option.map_some, named]
    rfl
  · rfl

/-- Only the membership of the user in the groups left is gone. -/
structure Left (user_id : String) (groups : List (String × Group)) (tables after : GroupTables) :
    Prop where
  names : SameNames after tables
  members : ∀ id other, Belongs after id other ↔
    Belongs tables id other ∧ ¬ (other = user_id ∧ id ∈ groups.map Prod.fst)

theorem foldl_leaveGroup (config : GroupConfig) (user_id : String)
    {groups : List (String × Group)} {tables : GroupTables}
    (current : ∀ group_model ∈ groups, Current tables group_model) :
    Left user_id groups tables (groups.foldl (leaveGroup config user_id) tables) := by
  induction groups generalizing tables with
  | nil => exact ⟨fun _ => rfl, fun _ _ => by simp⟩
  | cons group_model rest ih =>
    have here := current group_model List.mem_cons_self
    have removed : leaveGroup config user_id tables group_model =
        keepPermissions config.default_permissions ⟨tables.group,
          tables.group_member.filter (fun member =>
            !(decide (member.group_id = group_model.1) && decide (member.user_id ∈ [user_id])))⟩
          group_model := by
      rw [leaveGroup, remove_users_from_group, if_pos (mem_keys_of_current here)]
    have names : SameNames (leaveGroup config user_id tables group_model) tables := by
      rw [removed]
      exact keepPermissions_names config.default_permissions here
    have members : ∀ id other, Belongs (leaveGroup config user_id tables group_model) id other ↔
        Belongs tables id other ∧ ¬ (other = user_id ∧ id = group_model.1) := by
      intro id other
      rw [removed]
      simp only [Belongs, keepPermissions, update_group_by_id, List.mem_filter, Bool.not_eq_true',
        Bool.and_eq_false_iff, decide_eq_false_iff_not, List.mem_singleton]
      constructor
      · rintro ⟨member, ⟨stored, kept⟩, rfl, rfl⟩
        refine ⟨⟨member, stored, rfl, rfl⟩, ?_⟩
        rintro ⟨user, group⟩
        exact kept.elim (absurd group) (absurd user)
      · rintro ⟨⟨member, stored, rfl, rfl⟩, kept⟩
        refine ⟨member, ⟨stored, ?_⟩, rfl, rfl⟩
        by_cases group : member.group_id = group_model.1
        · exact Or.inr (fun user => kept ⟨user, group⟩)
        · exact Or.inl group
    have later := ih (fun other member =>
      (names other.1).trans (current other (List.mem_cons_of_mem _ member)))
    refine ⟨fun id => (later.names id).trans (names id), fun id other => ?_⟩
    rw [List.foldl_cons, later.members, members, List.map_cons, List.mem_cons, and_assoc]
    refine and_congr_right (fun _ => ?_)
    rw [← not_or, ← and_or_left]

/-- Only the membership of the user in the groups joined is new. -/
structure Joined (user_id : String) (groups : List (String × Group)) (tables after : GroupTables) :
    Prop where
  names : SameNames after tables
  members : ∀ id other, Belongs after id other ↔
    Belongs tables id other ∨ (other = user_id ∧ id ∈ groups.map Prod.fst)

theorem foldl_joinGroup (config : GroupConfig) (user_id : String)
    {groups : List (String × Group)} {tables : GroupTables}
    (current : ∀ group_model ∈ groups, Current tables group_model) :
    Joined user_id groups tables (groups.foldl (joinGroup config user_id) tables) := by
  induction groups generalizing tables with
  | nil => exact ⟨fun _ => rfl, fun _ _ => by simp⟩
  | cons group_model rest ih =>
    have here := current group_model List.mem_cons_self
    have added : joinGroup config user_id tables group_model =
        keepPermissions config.default_permissions ⟨tables.group,
          tables.group_member ++ [GroupMember.mk group_model.1 user_id]⟩ group_model := by
      rw [joinGroup, add_users_to_group, if_pos (mem_keys_of_current here)]
      rfl
    have names : SameNames (joinGroup config user_id tables group_model) tables := by
      rw [added]
      exact keepPermissions_names config.default_permissions here
    have members : ∀ id other, Belongs (joinGroup config user_id tables group_model) id other ↔
        Belongs tables id other ∨ (other = user_id ∧ id = group_model.1) := by
      intro id other
      rw [added]
      simp only [Belongs, keepPermissions, update_group_by_id, List.mem_append,
        List.mem_singleton]
      constructor
      · rintro ⟨member, stored | rfl, rfl, rfl⟩
        · exact Or.inl ⟨member, stored, rfl, rfl⟩
        · exact Or.inr ⟨rfl, rfl⟩
      · rintro (⟨member, stored, rfl, rfl⟩ | ⟨rfl, rfl⟩)
        · exact ⟨member, Or.inl stored, rfl, rfl⟩
        · exact ⟨_, Or.inr rfl, rfl, rfl⟩
    have later := ih (fun other member =>
      (names other.1).trans (current other (List.mem_cons_of_mem _ member)))
    refine ⟨fun id => (later.names id).trans (names id), fun id other => ?_⟩
    rw [List.foldl_cons, later.members, members, List.map_cons, List.mem_cons, or_assoc,
      ← and_or_left]

end OpenWebui.OAuth
