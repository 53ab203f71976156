import OpenWebui.OAuth.GroupSync

/-! The synchronisation of the groups of a user is exact and idempotent exactly when the claim is
not empty, or takes nothing away, and every pattern that is tried gives an answer. -/

namespace OpenWebui.OAuth

open AccessGrants (GroupMember)

section Exact

variable (search : String → String → SearchResult) (fnmatch : String → String → Bool)
  (config : GroupConfig) (user_id : String) (names : List String)

def blocked (name : String) : Except PyError Bool :=
  is_in_blocked_groups search fnmatch name config.blocked_groups

/-- The groups after a synchronisation agree with the names of the claim. -/
structure Agrees (before after : GroupTables) : Prop where
  kept : ∀ id group, before.group.get? id = some group →
    ∃ later, after.group.get? id = some later ∧ later.name = group.name
  listed : ∀ id group, after.group.get? id = some group →
    blocked search fnmatch config group.name = .ok false →
      (Belongs after id user_id ↔ group.name ∈ names)
  blocked : ∀ id group, after.group.get? id = some group →
    blocked search fnmatch config group.name = .ok true →
      (Belongs after id user_id ↔ Belongs before id user_id)
  others : ∀ id other, other ≠ user_id → (Belongs after id other ↔ Belongs before id other)

/-- The synchronisation ends, is exact, and again with the same claim changes nothing. -/
def Synchronised (user_data : Json) (tables : GroupTables) (ids : NewIds tables) : Prop :=
  ∃ after, update_user_groups search fnmatch config user_id user_data tables ids = .ok after ∧
    Agrees search fnmatch config user_id names tables after ∧
      ∀ again : NewIds after,
        update_user_groups search fnmatch config user_id user_data after again = .ok after

/-- The name of a group that the user would leave or join, were it not blocked. -/
def Tested (tables : GroupTables) (name : String) : Prop :=
  (∃ id group, tables.group.get? id = some group ∧ group.name = name ∧
      (Belongs tables id user_id ↔ name ∉ names)) ∨
    (config.ENABLE_OAUTH_GROUP_CREATION = true ∧ name ∈ names ∧ name ∉ groupNames tables)

/-- An empty claim takes nothing away; under another every pattern that is tried gives an
answer. -/
structure InLine (tables : GroupTables) : Prop where
  empty : names = [] → ∀ id group, tables.group.get? id = some group →
    blocked search fnmatch config group.name = .ok false → ¬ Belongs tables id user_id
  answered : names ≠ [] → ∀ name, Tested config user_id names tables name →
    ∃ answer, blocked search fnmatch config name = .ok answer

end Exact

section Run

variable {search : String → String → SearchResult} {fnmatch : String → String → Bool}
  {config : GroupConfig} {user_id : String} {names : List String} {user_data : Json}
  {tables created : GroupTables}

theorem notBlocked_of {name : String} {answer : Bool}
    (found : blocked search fnmatch config name = .ok answer) :
    notBlocked search fnmatch config name = .ok (!answer) := by
  rw [notBlocked, show is_in_blocked_groups search fnmatch name config.blocked_groups = _ from found]
  rfl

theorem blocked_of_notBlocked {name : String} {passes : Bool}
    (answered : notBlocked search fnmatch config name = .ok passes) :
    ∃ answer, blocked search fnmatch config name = .ok answer := by
  obtain ⟨answer, found, _⟩ := map_eq_ok.mp answered
  exact ⟨answer, found⟩

theorem leaves_listed {group_model : String × Group} (listed : group_model.2.name ∈ names) :
    leaves search fnmatch config (names.map Json.str) group_model = .ok false := by
  rw [leaves, if_neg]
  rintro ⟨_, absent⟩
  exact absent (str_mem_map.mpr listed)

theorem leaves_unlisted {group_model : String × Group} (some_name : names ≠ [])
    (absent : group_model.2.name ∉ names) :
    leaves search fnmatch config (names.map Json.str) group_model =
      notBlocked search fnmatch config group_model.2.name := by
  rw [leaves, if_pos]
  exact ⟨by simpa using some_name, fun listed => absent (str_mem_map.mp listed)⟩

theorem any_current_iff (extended : Extended names tables created) {id : String} {group : Group}
    (found : created.group.get? id = some group) :
    (get_groups_by_member_id tables user_id).any (fun current =>
        decide (current.2.name = group.name)) = true ↔ Belongs tables id user_id := by
  rw [List.any_eq_true]
  constructor
  · rintro ⟨⟨other, current⟩, member, same⟩
    obtain ⟨stored, belongs⟩ := mem_get_groups_by_member_id.mp member
    have one := extended.distinct other id current group (extended.kept other current stored) found
      (of_decide_eq_true same)
    exact one ▸ belongs
  · intro belongs
    rcases extended.new id group found with old | ⟨_, nobody, _⟩
    · exact ⟨(id, group), mem_get_groups_by_member_id.mpr ⟨old, belongs⟩, by simp⟩
    · exact absurd belongs (nobody user_id)

theorem joins_idle (extended : Extended names tables created) {id : String} {group : Group}
    (found : created.group.get? id = some group)
    (settled : group.name ∈ names → Belongs tables id user_id) :
    joins search fnmatch config (names.map Json.str) (get_groups_by_member_id tables user_id)
      (id, group) = .ok false := by
  rw [joins, if_neg]
  rintro ⟨_, listed, none⟩
  exact none ((any_current_iff extended found).mpr (settled (str_mem_map.mp listed)))

theorem joins_missing (extended : Extended names tables created) {id : String} {group : Group}
    (found : created.group.get? id = some group) (listed : group.name ∈ names)
    (outside : ¬ Belongs tables id user_id) :
    joins search fnmatch config (names.map Json.str) (get_groups_by_member_id tables user_id)
      (id, group) = notBlocked search fnmatch config group.name := by
  rw [joins, if_pos]
  refine ⟨?_, str_mem_map.mpr listed, fun any => outside ((any_current_iff extended found).mp any)⟩
  simpa using List.ne_nil_of_mem listed

/-- The groups that the user is to leave, and those to join. -/
def Leaves (search : String → String → SearchResult) (fnmatch : String → String → Bool)
    (config : GroupConfig) (names : List String) (tables : GroupTables) (user_id id : String) :
    Prop :=
  ∃ group, tables.group.get? id = some group ∧ Belongs tables id user_id ∧ group.name ∉ names ∧
    blocked search fnmatch config group.name = .ok false

def Joins (search : String → String → SearchResult) (fnmatch : String → String → Bool)
    (config : GroupConfig) (names : List String) (tables created : GroupTables)
    (user_id id : String) : Prop :=
  ∃ group, created.group.get? id = some group ∧ group.name ∈ names ∧
    ¬ Belongs tables id user_id ∧ blocked search fnmatch config group.name = .ok false

/-- The membership rows after a synchronisation with a claim. -/
def Settled (search : String → String → SearchResult) (fnmatch : String → String → Bool)
    (config : GroupConfig) (names : List String) (user_id : String)
    (tables created after : GroupTables) : Prop :=
  ∀ id other, Belongs after id other ↔
    (Belongs tables id other ∧
      ¬ (other = user_id ∧ Leaves search fnmatch config names tables user_id id)) ∨
    (other = user_id ∧ Joins search fnmatch config names tables created user_id id)

theorem current_of_kept (extended : Extended names tables created) {group_model : String × Group}
    (member : group_model ∈ get_groups_by_member_id tables user_id) :
    Current created group_model := by
  obtain ⟨stored, _⟩ := mem_get_groups_by_member_id.mp member
  rw [Current, extended.kept group_model.1 group_model.2 stored]
  rfl

theorem belongs_created (extended : Extended names tables created) (id other : String) :
    Belongs created id other ↔ Belongs tables id other := by
  unfold Belongs
  rw [extended.members]

theorem leave_loop (extended : Extended names tables created) (some_name : names ≠ [])
    (answered : ∀ id group, tables.group.get? id = some group → Belongs tables id user_id →
      group.name ∉ names → ∃ answer, blocked search fnmatch config group.name = .ok answer) :
    ∃ removed, (get_groups_by_member_id tables user_id).foldlM
        (Guarded.turn (leaves search fnmatch config (names.map Json.str))
          (leaveGroup config user_id)) created = .ok removed ∧
      SameNames removed created ∧ ∀ id other, Belongs removed id other ↔ Belongs tables id other ∧
        ¬ (other = user_id ∧ Leaves search fnmatch config names tables user_id id) := by
  have tested : ∀ group_model ∈ get_groups_by_member_id tables user_id,
      ∃ passes, leaves search fnmatch config (names.map Json.str) group_model = .ok passes := by
    rintro ⟨id, group⟩ member
    obtain ⟨stored, belongs⟩ := mem_get_groups_by_member_id.mp member
    by_cases listed : group.name ∈ names
    · exact ⟨false, leaves_listed listed⟩
    · obtain ⟨answer, found⟩ := answered id group stored belongs listed
      exact ⟨!answer, (leaves_unlisted some_name listed).trans (notBlocked_of found)⟩
  refine ⟨_, Guarded.foldlM_turn _ tested created, ?_⟩
  have left := @foldl_leaveGroup config user_id
    ((get_groups_by_member_id tables user_id).filter
      (Guarded.chosen (leaves search fnmatch config (names.map Json.str)))) created
    (fun group_model member => current_of_kept extended (List.mem_filter.mp member).1)
  refine ⟨left.names, fun id other => ?_⟩
  rw [left.members, belongs_created extended]
  refine and_congr_right (fun _ => not_congr (and_congr_right (fun _ => ?_)))
  rw [List.mem_map]
  constructor
  · rintro ⟨⟨_, group⟩, chosen, rfl⟩
    obtain ⟨member, passes⟩ := List.mem_filter.mp chosen
    obtain ⟨stored, belongs⟩ := mem_get_groups_by_member_id.mp member
    by_cases listed : group.name ∈ names
    · rw [Guarded.chosen, leaves_listed listed] at passes
      cases passes
    · obtain ⟨answer, found⟩ := answered _ group stored belongs listed
      rw [Guarded.chosen, leaves_unlisted some_name listed, notBlocked_of found] at passes
      cases answer with
      | false => exact ⟨group, stored, belongs, listed, found⟩
      | true => cases passes
  · rintro ⟨group, stored, belongs, absent, free⟩
    refine ⟨(id, group), List.mem_filter.mpr ⟨mem_get_groups_by_member_id.mpr ⟨stored, belongs⟩, ?_⟩,
      rfl⟩
    rw [Guarded.chosen, leaves_unlisted some_name absent, notBlocked_of free]
    rfl

theorem join_loop (extended : Extended names tables created) {removed : GroupTables}
    (same : SameNames removed created)
    (answered : ∀ id group, created.group.get? id = some group → ¬ Belongs tables id user_id →
      group.name ∈ names → ∃ answer, blocked search fnmatch config group.name = .ok answer) :
    ∃ after, created.group.entries.foldlM
        (Guarded.turn (joins search fnmatch config (names.map Json.str)
          (get_groups_by_member_id tables user_id)) (joinGroup config user_id)) removed =
            .ok after ∧
      SameNames after created ∧ ∀ id other, Belongs after id other ↔ Belongs removed id other ∨
        (other = user_id ∧ Joins search fnmatch config names tables created user_id id) := by
  have tested : ∀ group_model ∈ created.group.entries, ∃ passes,
      joins search fnmatch config (names.map Json.str) (get_groups_by_member_id tables user_id)
        group_model = .ok passes := by
    rintro ⟨id, group⟩ member
    have found := Dict.mem_entries_iff.mp member
    by_cases settled : group.name ∈ names → Belongs tables id user_id
    · exact ⟨false, joins_idle extended found settled⟩
    · obtain ⟨listed, outside⟩ := Classical.not_imp.mp settled
      obtain ⟨answer, known⟩ := answered id group found outside listed
      exact ⟨!answer, (joins_missing extended found listed outside).trans (notBlocked_of known)⟩
  refine ⟨_, Guarded.foldlM_turn _ tested removed, ?_⟩
  have present : ∀ group_model ∈ created.group.entries.filter (Guarded.chosen
      (joins search fnmatch config (names.map Json.str)
        (get_groups_by_member_id tables user_id))), Current removed group_model := by
    rintro ⟨id, group⟩ member
    have found := Dict.mem_entries_iff.mp (List.mem_filter.mp member).1
    rw [Current, same, found]
    rfl
  have joined := foldl_joinGroup config user_id present
  refine ⟨fun id => (joined.names id).trans (same id), fun id other => ?_⟩
  rw [joined.members]
  refine or_congr_right (and_congr_right (fun _ => ?_))
  rw [List.mem_map]
  constructor
  · rintro ⟨⟨place, group⟩, chosen, same_id⟩
    subst same_id
    obtain ⟨member, passes⟩ := List.mem_filter.mp chosen
    have found := Dict.mem_entries_iff.mp member
    by_cases settled : group.name ∈ names → Belongs tables place user_id
    · rw [Guarded.chosen, joins_idle extended found settled] at passes
      cases passes
    · obtain ⟨listed, outside⟩ := Classical.not_imp.mp settled
      obtain ⟨answer, known⟩ := answered place group found outside listed
      rw [Guarded.chosen, joins_missing extended found listed outside, notBlocked_of known] at passes
      cases answer with
      | false => exact ⟨group, found, listed, outside, known⟩
      | true => cases passes
  · rintro ⟨group, found, listed, outside, free⟩
    refine ⟨(id, group), List.mem_filter.mpr ⟨Dict.mem_entries_iff.mpr found, ?_⟩, rfl⟩
    rw [Guarded.chosen, joins_missing extended found listed outside, notBlocked_of free]
    rfl

theorem exists_created (config : GroupConfig) (names : List String) {tables : GroupTables}
    (ids : NewIds tables) (distinct : DistinctNames tables) : ∃ created count,
    createMissing ids.uuid config (names.map Json.str) tables = .ok (created, count) ∧
      Extended names tables created ∧
        (config.ENABLE_OAUTH_GROUP_CREATION = true → ∀ name ∈ names, name ∈ groupNames created) ∧
          (config.ENABLE_OAUTH_GROUP_CREATION = false → created = tables) := by
  rw [createMissing]
  cases config.ENABLE_OAUTH_GROUP_CREATION with
  | false => exact ⟨tables, 0, rfl, extended_self distinct names, by simp, fun _ => rfl⟩
  | true =>
    have start : Extended names tables ((tables, 0) : GroupTables × Nat).1 :=
      extended_self distinct names
    have generated : Generated ids (tables, 0) := fun id old => Or.inl old
    obtain ⟨⟨created, count⟩, done, extended, _, known⟩ := createGroups_extended ids
      config.default_permissions (fun name member => member) start generated
    exact ⟨created, count, done, extended, fun _ => known, by simp⟩

theorem update_user_groups_eq (present : ClaimPresent config user_data names)
    {ids : NewIds tables} {count : Nat}
    (creation : createMissing ids.uuid config (names.map Json.str) tables = .ok (created, count)) :
    update_user_groups search fnmatch config user_id user_data tables ids =
      ((get_groups_by_member_id tables user_id).foldlM
        (Guarded.turn (leaves search fnmatch config (names.map Json.str))
          (leaveGroup config user_id)) created).bind (fun removed =>
        created.group.entries.foldlM
          (Guarded.turn (joins search fnmatch config (names.map Json.str)
            (get_groups_by_member_id tables user_id)) (joinGroup config user_id)) removed) := by
  rw [update_user_groups, userOauthGroups_of_present present]
  change Except.bind (createMissing ids.uuid config (names.map Json.str) tables) _ = _
  rw [creation]
  rfl

theorem update_user_groups_idle (present : ClaimPresent config user_data names)
    (ids : NewIds tables)
    (known : config.ENABLE_OAUTH_GROUP_CREATION = true → ∀ name ∈ names, name ∈ groupNames tables)
    (stays : ∀ row ∈ get_groups_by_member_id tables user_id,
      leaves search fnmatch config (names.map Json.str) row = .ok false)
    (out : ∀ row ∈ tables.group.entries, joins search fnmatch config (names.map Json.str)
      (get_groups_by_member_id tables user_id) row = .ok false) :
    update_user_groups search fnmatch config user_id user_data tables ids = .ok tables := by
  have creation : createMissing ids.uuid config (names.map Json.str) tables = .ok (tables, 0) := by
    rw [createMissing]
    split
    · rename_i enabled
      exact createGroups_known (known enabled)
    · rfl
  rw [update_user_groups_eq present creation, Guarded.foldlM_turn_idle stays]
  exact Guarded.foldlM_turn_idle out tables

theorem updated_of_answered (present : ClaimPresent config user_data names) (some_name : names ≠ [])
    (ids : NewIds tables) (distinct : DistinctNames tables)
    (answered : ∀ name, Tested config user_id names tables name →
      ∃ answer, blocked search fnmatch config name = .ok answer) :
    ∃ created after, Extended names tables created ∧
      (config.ENABLE_OAUTH_GROUP_CREATION = true → ∀ name ∈ names, name ∈ groupNames created) ∧
      (config.ENABLE_OAUTH_GROUP_CREATION = false → created = tables) ∧
      update_user_groups search fnmatch config user_id user_data tables ids = .ok after ∧
      SameNames after created ∧
        Settled search fnmatch config names user_id tables created after := by
  obtain ⟨created, count, creation, extended, known, none_created⟩ :=
    exists_created config names ids distinct
  obtain ⟨removed, left, same, members⟩ := leave_loop extended some_name
    (fun id group found belongs absent => answered group.name (Or.inl ⟨id, group, found, rfl,
      iff_of_true belongs absent⟩))
  obtain ⟨after, joined, same, later⟩ := join_loop extended same (by
    intro id group found outside listed
    refine answered group.name ?_
    rcases extended.new id group found with old | ⟨_, _, _, fresh⟩
    · exact Or.inl ⟨id, group, old, rfl, iff_of_false outside (not_not_intro listed)⟩
    · refine Or.inr ⟨?_, listed, fresh⟩
      by_contra disabled
      have unchanged := none_created (Bool.eq_false_iff.mpr disabled)
      exact fresh (mem_groupNames.mpr ⟨id, group, unchanged ▸ found, rfl⟩))
  refine ⟨created, after, extended, known, none_created, ?_, same, fun id other => ?_⟩
  · rw [update_user_groups_eq present creation, left]
    exact joined
  · rw [later, members]

theorem update_user_groups_empty (present : ClaimPresent config user_data [])
    (ids : NewIds tables) :
    update_user_groups search fnmatch config user_id user_data tables ids = .ok tables := by
  refine update_user_groups_idle present ids (by simp) ?_ ?_
  · intro row _
    rw [leaves, if_neg (by simp)]
  · intro row _
    rw [joins, if_neg (by simp)]

theorem created_of_after {after : GroupTables} (same : SameNames after created) {id : String}
    {group : Group} (found : after.group.get? id = some group) :
    ∃ earlier, created.group.get? id = some earlier ∧ earlier.name = group.name := by
  have named := same id
  rw [found, Option.map_some] at named
  exact Option.map_eq_some_iff.mp named.symm

theorem listed_of_settled (extended : Extended names tables created) {after : GroupTables}
    (same : SameNames after created)
    (settled : Settled search fnmatch config names user_id tables created after) {id : String}
    {group : Group} (found : after.group.get? id = some group)
    (free : blocked search fnmatch config group.name = .ok false) :
    Belongs after id user_id ↔ group.name ∈ names := by
  obtain ⟨earlier, stored, named⟩ := created_of_after same found
  rw [settled]
  constructor
  · rintro (⟨belongs, stays⟩ | ⟨_, joined, known, listed, _⟩)
    · by_contra absent
      rcases extended.new id earlier stored with old | ⟨_, nobody, _⟩
      · exact stays ⟨rfl, earlier, old, belongs, named ▸ absent, named ▸ free⟩
      · exact nobody user_id belongs
    · obtain rfl := Option.some.inj (stored.symm.trans known)
      exact named ▸ listed
  · intro listed
    by_cases belongs : Belongs tables id user_id
    · refine Or.inl ⟨belongs, ?_⟩
      rintro ⟨_, other, known, _, absent, _⟩
      obtain rfl := Option.some.inj ((extended.kept id other known).symm.trans stored)
      exact absent (named ▸ listed)
    · exact Or.inr ⟨rfl, earlier, stored, named ▸ listed, belongs, named ▸ free⟩

theorem blocked_of_settled (extended : Extended names tables created) {after : GroupTables}
    (same : SameNames after created)
    (settled : Settled search fnmatch config names user_id tables created after) {id : String}
    {group : Group} (found : after.group.get? id = some group)
    (barred : blocked search fnmatch config group.name = .ok true) :
    Belongs after id user_id ↔ Belongs tables id user_id := by
  obtain ⟨earlier, stored, named⟩ := created_of_after same found
  rw [settled]
  constructor
  · rintro (⟨belongs, _⟩ | ⟨_, joined, known, _, _, free⟩)
    · exact belongs
    · obtain rfl := Option.some.inj (stored.symm.trans known)
      rw [named, barred] at free
      cases free
  · intro belongs
    refine Or.inl ⟨belongs, ?_⟩
    rintro ⟨_, other, known, _, _, free⟩
    obtain rfl := Option.some.inj ((extended.kept id other known).symm.trans stored)
    rw [named, barred] at free
    cases free

theorem agrees_of_settled (extended : Extended names tables created) {after : GroupTables}
    (same : SameNames after created)
    (settled : Settled search fnmatch config names user_id tables created after) :
    Agrees search fnmatch config user_id names tables after where
  kept id group found := by
    have named := same id
    rw [extended.kept id group found] at named
    exact Option.map_eq_some_iff.mp named
  listed _ _ found free := listed_of_settled extended same settled found free
  blocked _ _ found barred := blocked_of_settled extended same settled found barred
  others id other apart := by
    rw [settled]
    constructor
    · rintro (⟨belongs, _⟩ | ⟨same_user, _⟩)
      · exact belongs
      · exact absurd same_user apart
    · intro belongs
      exact Or.inl ⟨belongs, fun left => apart left.1⟩

theorem blocked_after (extended : Extended names tables created) {after : GroupTables}
    (same : SameNames after created)
    (settled : Settled search fnmatch config names user_id tables created after)
    (enabled : ∀ id group, created.group.get? id = some group → tables.group.get? id = none →
      config.ENABLE_OAUTH_GROUP_CREATION = true)
    (answered : ∀ name, Tested config user_id names tables name →
      ∃ answer, blocked search fnmatch config name = .ok answer)
    {id : String} {group : Group} (found : after.group.get? id = some group)
    (open_still : Belongs after id user_id ↔ group.name ∉ names) :
    blocked search fnmatch config group.name = .ok true := by
  obtain ⟨earlier, stored, named⟩ := created_of_after same found
  have tested : Tested config user_id names tables group.name := by
    rcases extended.new id earlier stored with old | ⟨none_old, nobody, listed, fresh⟩
    · refine Or.inl ⟨id, earlier, old, named, ?_⟩
      rw [← open_still, settled]
      constructor
      · intro belongs
        refine Or.inl ⟨belongs, ?_⟩
        rintro ⟨_, other, known, _, absent, free⟩
        obtain rfl := Option.some.inj (old.symm.trans known)
        have after_all := listed_of_settled extended same settled found (named ▸ free)
        rw [named] at absent
        exact absent (after_all.mp (open_still.mpr absent))
      · rintro (⟨belongs, _⟩ | ⟨_, other, known, listed, _, free⟩)
        · exact belongs
        · obtain rfl := Option.some.inj (stored.symm.trans known)
          rw [named] at listed free
          have after_all := listed_of_settled extended same settled found free
          exact absurd listed (open_still.mp (after_all.mpr listed))
    · exact Or.inr ⟨enabled id earlier stored none_old, named ▸ listed, named ▸ fresh⟩
  obtain ⟨answer, known⟩ := answered group.name tested
  cases answer with
  | true => exact known
  | false =>
    have after_all := listed_of_settled extended same settled found known
    rw [after_all] at open_still
    exact absurd open_still (not_iff_self ∘ Iff.symm)

theorem mem_groupNames_of_same {after : GroupTables} (same : SameNames after created) {name : String}
    (known : name ∈ groupNames created) : name ∈ groupNames after := by
  obtain ⟨id, group, found, rfl⟩ := mem_groupNames.mp known
  have named := same id
  rw [found] at named
  obtain ⟨later, stored, named⟩ := Option.map_eq_some_iff.mp named
  exact mem_groupNames.mpr ⟨id, later, stored, named⟩

theorem distinct_of_same {after : GroupTables} (same : SameNames after created)
    (distinct : DistinctNames created) : DistinctNames after := by
  intro first second one two found other named
  obtain ⟨early, stored, early_name⟩ := created_of_after same found
  obtain ⟨late, kept, late_name⟩ := created_of_after same other
  exact distinct first second early late stored kept
    (early_name.trans (named.trans late_name.symm))

theorem again_of_settled (present : ClaimPresent config user_data names) (some_name : names ≠ [])
    (extended : Extended names tables created) {after : GroupTables}
    (known : config.ENABLE_OAUTH_GROUP_CREATION = true → ∀ name ∈ names, name ∈ groupNames created)
    (none_created : config.ENABLE_OAUTH_GROUP_CREATION = false → created = tables)
    (same : SameNames after created)
    (settled : Settled search fnmatch config names user_id tables created after)
    (answered : ∀ name, Tested config user_id names tables name →
      ∃ answer, blocked search fnmatch config name = .ok answer) (again : NewIds after) :
    update_user_groups search fnmatch config user_id user_data after again = .ok after := by
  have enabled : ∀ id group, created.group.get? id = some group → tables.group.get? id = none →
      config.ENABLE_OAUTH_GROUP_CREATION = true := by
    intro id group found absent
    by_contra disabled
    rw [none_created (Bool.eq_false_iff.mpr disabled), absent] at found
    cases found
  have barred := fun id group found open_still =>
    @blocked_after _ _ _ _ _ _ _ extended after same settled enabled answered id group found
      open_still
  have distinct := distinct_of_same same extended.distinct
  refine update_user_groups_idle present again
    (fun on name member => mem_groupNames_of_same same (known on name member)) ?_ ?_
  · rintro ⟨id, group⟩ member
    obtain ⟨found, belongs⟩ := mem_get_groups_by_member_id.mp member
    by_cases listed : group.name ∈ names
    · exact leaves_listed listed
    · rw [leaves_unlisted some_name listed]
      exact notBlocked_of (barred id group found (iff_of_true belongs listed))
  · rintro ⟨id, group⟩ member
    have found := Dict.mem_entries_iff.mp member
    have whole := extended_self distinct names
    by_cases idle : group.name ∈ names → Belongs after id user_id
    · exact joins_idle whole found idle
    · obtain ⟨listed, outside⟩ := Classical.not_imp.mp idle
      rw [joins_missing whole found listed outside]
      exact notBlocked_of (barred id group found (iff_of_false outside (not_not_intro listed)))

theorem answered_of_updated (present : ClaimPresent config user_data names) (some_name : names ≠ [])
    (ids : NewIds tables) (distinct : DistinctNames tables) {after : GroupTables}
    (done : update_user_groups search fnmatch config user_id user_data tables ids = .ok after)
    {name : String} (tested : Tested config user_id names tables name) :
    ∃ answer, blocked search fnmatch config name = .ok answer := by
  obtain ⟨created, count, creation, extended, known, _⟩ := exists_created config names ids distinct
  rw [update_user_groups_eq present creation] at done
  obtain ⟨removed, left, joined⟩ := bind_eq_ok.mp done
  have leaving := Guarded.answered_of_foldlM left
  have joining := Guarded.answered_of_foldlM joined
  have join_answer : ∀ id group, created.group.get? id = some group → group.name ∈ names →
      ¬ Belongs tables id user_id → ∃ answer, blocked search fnmatch config group.name = .ok answer := by
    intro id group found listed outside
    obtain ⟨passes, answer⟩ := joining (id, group) (Dict.mem_entries_iff.mpr found)
    rw [joins_missing extended found listed outside] at answer
    exact blocked_of_notBlocked answer
  rcases tested with ⟨id, group, found, rfl, open_still⟩ | ⟨enabled, listed, fresh⟩
  · by_cases belongs : Belongs tables id user_id
    · have absent := open_still.mp belongs
      obtain ⟨passes, answer⟩ := leaving (id, group)
        (mem_get_groups_by_member_id.mpr ⟨found, belongs⟩)
      rw [leaves_unlisted some_name absent] at answer
      exact blocked_of_notBlocked answer
    · have listed := not_not.mp (mt open_still.mpr belongs)
      exact join_answer id group (extended.kept id group found) listed belongs
  · obtain ⟨id, group, found, rfl⟩ := mem_groupNames.mp (known enabled name listed)
    rcases extended.new id group found with old | ⟨_, nobody, _⟩
    · exact absurd (mem_groupNames.mpr ⟨id, group, old, rfl⟩) fresh
    · exact join_answer id group found listed (nobody user_id)

end Run

/-- For a claim that is present as a list of texts, and groups with distinct names, the
synchronisation is exact and idempotent exactly when an empty claim takes nothing away and the
patterns that are tried give an answer. -/
theorem update_user_groups_synchronised_iff (search : String → String → SearchResult)
    (fnmatch : String → String → Bool) (config : GroupConfig) (user_id : String)
    (names : List String) (user_data : Json) (tables : GroupTables) (ids : NewIds tables)
    (present : ClaimPresent config user_data names) (distinct : DistinctNames tables) :
    Synchronised search fnmatch config user_id names user_data tables ids ↔
      InLine search fnmatch config user_id names tables := by
  constructor
  · rintro ⟨after, done, agrees, _⟩
    refine ⟨?_, fun some_name name => answered_of_updated present some_name ids distinct done⟩
    rintro rfl id group found free belongs
    rw [update_user_groups_empty present ids] at done
    obtain rfl := Except.ok.inj done
    exact absurd ((agrees.listed id group found free).mp belongs) List.not_mem_nil
  · intro inLine
    by_cases some_name : names = []
    · subst some_name
      refine ⟨tables, update_user_groups_empty present ids, ?_, update_user_groups_empty present⟩
      refine ⟨fun id group found => ⟨group, found, rfl⟩, ?_, fun _ _ _ _ => Iff.rfl,
        fun _ _ _ => Iff.rfl⟩
      intro id group found free
      exact iff_of_false (inLine.empty rfl id group found free) List.not_mem_nil
    · have answered := inLine.answered some_name
      obtain ⟨created, after, extended, known, none_created, done, same, settled⟩ :=
        updated_of_answered present some_name ids distinct answered
      exact ⟨after, done, agrees_of_settled extended same settled,
        again_of_settled present some_name extended known none_created same settled answered⟩

/-- A configuration without blocked groups, whose claim is `groups`. -/
def groupsConfig : GroupConfig where
  OAUTH_GROUPS_CLAIM := "groups"
  OAUTH_GROUPS_SEPARATOR := ";"
  ENABLE_OAUTH_GROUP_CREATION := false
  blocked_groups := []
  default_permissions := none

def staff : Group := ⟨"staff", "", none⟩

def staffTables (user_ids : List String) : GroupTables where
  group := Dict.empty.set "g" staff
  group_member := user_ids.map (GroupMember.mk "g")

def repeatedIds (user_ids : List String) : NewIds (staffTables user_ids) where
  uuid place := String.ofList (List.replicate place 'x')
  distinct first second same := by
    have lengths := congrArg List.length (String.ofList_injective same)
    simpa using lengths
  fresh place inside := by
    have only : String.ofList (List.replicate place 'x') = "g" := by
      simpa [staffTables, Dict.keys, Dict.set, Dict.empty, Assoc.set] using inside
    have letter : 'g' ∈ List.replicate place 'x' := by
      rw [← @String.toList_ofList (List.replicate place 'x'), only]
      decide
    exact absurd (List.eq_of_mem_replicate letter) (by decide)
  unused place member stored same := by
    obtain ⟨user_id, _, rfl⟩ := List.mem_map.mp stored
    have letter : 'g' ∈ List.replicate place 'x' := by
      rw [← @String.toList_ofList (List.replicate place 'x'), ← same]
      change 'g' ∈ "g".toList
      decide
    exact absurd (List.eq_of_mem_replicate letter) (by decide)

theorem staffTables_group {user_ids : List String} {id : String} {group : Group}
    (found : (staffTables user_ids).group.get? id = some group) : id = "g" ∧ group = staff := by
  rw [staffTables, Dict.get?_set] at found
  split at found
  · rename_i same
    exact ⟨same.symm, (Option.some.inj found).symm⟩
  · cases found

theorem staffTables_distinct (user_ids : List String) : DistinctNames (staffTables user_ids) := by
  intro first second one two found other _
  rw [(staffTables_group found).1, (staffTables_group other).1]

def sameWord (pattern name : String) : Bool := decide (pattern = name)

/-- A claim of the one group puts a user into it. -/
theorem groups_synchronised_staff :
    Synchronised (fun pattern name => .answer (sameWord pattern name)) sameWord groupsConfig "ann"
      ["staff"] (.obj [("groups", .arr [.str "staff"])]) (staffTables []) (repeatedIds []) := by
  have present : ClaimPresent groupsConfig (.obj [("groups", .arr [.str "staff"])]) ["staff"] := by
    decide +kernel
  exact (update_user_groups_synchronised_iff _ _ groupsConfig "ann" ["staff"] _ _ _ present
    (staffTables_distinct [])).mpr ⟨by simp, fun _ name _ => ⟨false, rfl⟩⟩

theorem groups_not_synchronised_empty :
    ¬ ∀ (search : String → String → SearchResult) (fnmatch : String → String → Bool)
      (config : GroupConfig) (user_id : String) (names : List String) (user_data : Json)
      (tables : GroupTables) (ids : NewIds tables), ClaimPresent config user_data names →
        DistinctNames tables →
          Synchronised search fnmatch config user_id names user_data tables ids := by
  intro always
  have present : ClaimPresent groupsConfig (.obj [("groups", .arr [])]) [] := by decide +kernel
  obtain ⟨after, done, agrees, _⟩ := always (fun _ _ => .error) (fun _ _ => false) groupsConfig
    "ann" [] _ (staffTables ["ann"]) (repeatedIds ["ann"]) present (staffTables_distinct ["ann"])
  rw [update_user_groups_empty present] at done
  obtain rfl := Except.ok.inj done
  have belongs : Belongs (staffTables ["ann"]) "g" "ann" := ⟨⟨"g", "ann"⟩, by simp [staffTables], rfl, rfl⟩
  have found : (staffTables ["ann"]).group.get? "g" = some staff := by decide
  exact absurd ((agrees.listed "g" staff found rfl).mp belongs) List.not_mem_nil

end OpenWebui.OAuth
