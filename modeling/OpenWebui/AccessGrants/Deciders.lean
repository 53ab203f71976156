import OpenWebui.AccessGrants.Queries

/-! One policy behind the deciders of access grants: a grant admits a user who is anyone, who is
named by it, or who is in the group it names. -/

namespace OpenWebui.AccessGrants

/-- The grant is a permission on the resource. -/
def AccessGrant.on (grant : AccessGrant) (resource_type resource_id permission : String) :
    Prop :=
  grant.resource_type = resource_type ∧ grant.resource_id = resource_id ∧
    grant.permission = permission

/-- The grant names everyone, the user, or one of the groups. -/
def AccessGrant.admits (grant : AccessGrant) (user_id : String) (group_ids : List String) : Prop :=
  (grant.principal_type = "user" ∧
      (grant.principal_id = "*" ∨ grant.principal_id = user_id)) ∨
    (grant.principal_type = "group" ∧ grant.principal_id ∈ group_ids)

/-- The policy: some grant on the resource admits the user. -/
def Allowed (db : Database) (user_id : String) (group_ids : List String)
    (resource_type resource_id permission : String) : Prop :=
  ∃ grant ∈ db.access_grant, grant.on resource_type resource_id permission ∧
    grant.admits user_id group_ids

/-- Some grant of the permission on the resource is to everyone. -/
def Public (db : Database) (resource_type resource_id permission : String) : Prop :=
  ∃ grant ∈ db.access_grant, grant.on resource_type resource_id permission ∧
    isPublic grant = true

@[simp] theorem isPublic_iff (grant : AccessGrant) :
    isPublic grant = true ↔ grant.principal_type = "user" ∧ grant.principal_id = "*" := by
  simp [isPublic]

@[simp] theorem isDirect_iff (user_id : String) (grant : AccessGrant) :
    isDirect user_id grant = true ↔
      grant.principal_type = "user" ∧ grant.principal_id = user_id := by
  simp [isDirect]

theorem isGroup_iff (group_ids : List String) (grant : AccessGrant) :
    (!group_ids.isEmpty && isGroup group_ids grant) = true ↔
      grant.principal_type = "group" ∧ grant.principal_id ∈ group_ids := by
  rw [Bool.and_eq_true, isGroup, Bool.and_eq_true, decide_eq_true_eq, decide_eq_true_eq]
  constructor
  · exact And.right
  · intro inside
    exact ⟨by cases group_ids <;> simp_all, inside⟩

theorem conditions_iff (user_id : String) (group_ids : List String) (grant : AccessGrant) :
    conditions user_id group_ids grant = true ↔ grant.admits user_id group_ids := by
  rw [conditions, Bool.or_eq_true, Bool.or_eq_true, isGroup_iff, isPublic_iff, isDirect_iff,
    AccessGrant.admits, and_or_left]

theorem has_access_iff (db : Database) (user_id resource_type resource_id permission : String)
    (user_group_ids : Option (List String)) :
    has_access db user_id resource_type resource_id permission user_group_ids = true ↔
      Allowed db user_id (groupIds db user_id user_group_ids) resource_type resource_id
        permission := by
  simp only [has_access, List.find?_isSome, Bool.and_eq_true, decide_eq_true_eq, conditions_iff,
    Allowed, AccessGrant.on, and_assoc]

theorem mem_get_accessible_resource_ids_iff (db : Database)
    (user_id resource_type permission : String) (resource_ids : List String)
    (user_group_ids : Option (List String)) (resource_id : String) :
    resource_id ∈ get_accessible_resource_ids db user_id resource_type resource_ids permission
        user_group_ids ↔
      resource_id ∈ resource_ids ∧
        Allowed db user_id (groupIds db user_id user_group_ids) resource_type resource_id
          permission := by
  unfold get_accessible_resource_ids
  split
  · rename_i empty
    simp [List.isEmpty_iff.mp empty]
  · simp only [List.mem_eraseDups, List.mem_map, List.mem_filter, Bool.and_eq_true,
      decide_eq_true_eq, conditions_iff, Allowed, AccessGrant.on]
    constructor
    · rintro ⟨grant, ⟨stored, ⟨⟨kind, listed⟩, same⟩, admitted⟩, rfl⟩
      exact ⟨listed, grant, stored, ⟨kind, rfl, same⟩, admitted⟩
    · rintro ⟨listed, grant, stored, ⟨kind, rfl, same⟩, admitted⟩
      exact ⟨grant, ⟨stored, ⟨⟨kind, listed⟩, same⟩, admitted⟩, rfl⟩

theorem grantAdmits_grantDict (user_id permission : String) (group_ids : List String)
    (grant : AccessGrant) :
    grantAdmits user_id permission group_ids (grantDict grant) =
      .ok (decide (grant.permission = permission) && conditions user_id group_ids grant) := by
  have permissionField : getField (dictFields grant) "permission" = .str grant.permission := rfl
  have typeField : getField (dictFields grant) "principal_type" = .str grant.principal_type := rfl
  have idField : getField (dictFields grant) "principal_id" = .str grant.principal_id := rfl
  simp only [grantDict, grantAdmits, permissionField, typeField, idField, inGroups, Json.hashable,
    Json.str?, Option.any_some, Json.str.injEq, ne_eq, if_true]
  by_cases permitted : grant.permission = permission
  · rw [if_neg (not_not_intro permitted)]
    by_cases named : grant.principal_type = "user" ∧
        (grant.principal_id = "*" ∨ grant.principal_id = user_id)
    · have admitted := (conditions_iff user_id group_ids grant).mpr (Or.inl named)
      simp [named, permitted, admitted]
    · rw [if_neg named, decide_eq_true permitted, Bool.true_and]
      have grouped : conditions user_id group_ids grant =
          decide (grant.principal_type = "group" ∧ grant.principal_id ∈ group_ids) := by
        rw [Bool.eq_iff_iff, conditions_iff, decide_eq_true_eq, AccessGrant.admits]
        exact or_iff_right named
      rw [grouped]
      split
      · rename_i group
        simp [group.1]
      · rename_i noGroup
        congr 1
        symm
        rw [decide_eq_false_iff_not]
        rintro ⟨kind, inside⟩
        exact noGroup ⟨kind, List.ne_nil_of_mem inside⟩
  · simp [permitted]

theorem anyGrant_map_grantDict (user_id permission : String) (group_ids : List String)
    (grants : List AccessGrant) :
    anyGrant user_id permission group_ids (grants.map grantDict) =
      .ok (grants.any (fun grant =>
        decide (grant.permission = permission) && conditions user_id group_ids grant)) := by
  induction grants with
  | nil => rfl
  | cons grant rest ih =>
    rw [List.map_cons, anyGrant, grantAdmits_grantDict, List.any_cons, ih]
    cases decide (grant.permission = permission) && conditions user_id group_ids grant <;> rfl

theorem inMemoryAccess_iff (db : Database) (user_id resource_type resource_id permission : String)
    (user_group_ids : Option (List String)) :
    inMemoryAccess db user_id permission
        ((get_grants_by_resource db resource_type resource_id).map grantDict) user_group_ids =
          .ok true ↔
      Allowed db user_id (groupIds db user_id user_group_ids) resource_type resource_id
        permission := by
  have decided : inMemoryAccess db user_id permission
      ((get_grants_by_resource db resource_type resource_id).map grantDict) user_group_ids =
        .ok ((get_grants_by_resource db resource_type resource_id).any (fun grant =>
          decide (grant.permission = permission) &&
            conditions user_id (groupIds db user_id user_group_ids) grant)) := by
    rw [inMemoryAccess, anyGrant_map_grantDict]
    split
    · rename_i empty
      simp only [List.isEmpty_iff, List.map_eq_nil_iff] at empty
      rw [empty, List.any_nil]
    · rfl
  rw [decided, Except.ok.injEq, List.any_eq_true]
  simp only [get_grants_by_resource, List.mem_filter, Bool.and_eq_true, decide_eq_true_eq,
    conditions_iff, Allowed, AccessGrant.on, and_assoc]

theorem filterUser_some (user : User) : filterUser (some user.id) = some user.id := by
  simp [filterUser, user.named]

theorem grantExists_iff (db : Database) (user : User) (group_ids : List String)
    (resource_type permission : String) (document : Document) :
    grantExists db resource_type permission document (fun grant =>
        isPublic grant || filterPrincipal (some user.id) group_ids grant) = true ↔
      Allowed db user.id group_ids resource_type document.id permission := by
  have principals : ∀ grant : AccessGrant,
      (isPublic grant || filterPrincipal (some user.id) group_ids grant) =
        conditions user.id group_ids grant := by
    intro grant
    rw [filterPrincipal, filterUser_some, Option.any_some, ← Bool.or_assoc]
    rfl
  simp only [grantExists, principals, List.any_eq_true, Bool.and_eq_true, decide_eq_true_eq,
    conditions_iff, Allowed, AccessGrant.on, and_assoc]

theorem mem_has_permission_filter_iff (db : Database) (documents : List Document) (user : User)
    (group_ids : List String) (resource_type permission : String)
    (writable : permission = "read" ∨ permission = "write") (document : Document) :
    document ∈ has_permission_filter db documents (some user.id) group_ids resource_type
        permission ↔
      document ∈ documents ∧ (document.user_id = some user.id ∨
        Allowed db user.id group_ids resource_type document.id permission) := by
  have bounded : permission ≠ "read_only" := by
    rcases writable with rfl | rfl <;> decide
  have owner : ownedBy (some user.id) document = true ↔ document.user_id = some user.id := by
    rw [ownedBy, filterUser_some, Option.any_some, decide_eq_true_eq]
  rw [has_permission_filter, if_neg bounded, filterUser_some, Option.isNone_some, Bool.false_and,
    if_neg Bool.false_ne_true, List.mem_filter, Bool.or_eq_true, grantExists_iff, owner, or_comm]

/-- A membership row of the user. -/
def Member (db : Database) (group_id user_id : String) : Prop :=
  ∃ member ∈ db.group_member, member.group_id = group_id ∧ member.user_id = user_id

/-- A group row. -/
def Live (db : Database) (group_id : String) : Prop := ∃ group ∈ db.group, group.id = group_id

theorem mem_groupIds_none (db : Database) (user_id group_id : String) :
    group_id ∈ groupIds db user_id none ↔ Live db group_id ∧ Member db group_id user_id := by
  simp only [groupIds, Option.getD_none, get_groups_by_member_id, List.mem_map, List.mem_filter,
    List.any_eq_true, Bool.and_eq_true, decide_eq_true_eq, Live, Member]
  constructor
  · rintro ⟨group, ⟨stored, member, row, same, belongs⟩, rfl⟩
    exact ⟨⟨group, stored, rfl⟩, member, row, same, belongs⟩
  · rintro ⟨⟨group, stored, rfl⟩, member, row, same, belongs⟩
    exact ⟨group, ⟨stored, member, row, same, belongs⟩, rfl⟩

theorem mem_grantUserIds (db : Database) (user_id : String) (grant : AccessGrant) :
    user_id ∈ grantUserIds db grant ↔
      (grant.principal_type = "user" ∧ grant.principal_id = user_id) ∨
        (grant.principal_type = "group" ∧ Member db grant.principal_id user_id) := by
  unfold grantUserIds
  split
  · rename_i kind
    simp [kind, eq_comm]
  · rename_i noUser
    split
    · rename_i kind
      simp [kind, get_group_user_ids_by_id, Member, and_assoc]
    · rename_i noGroup
      simp [noUser, noGroup]

theorem mem_get_users_with_access_iff (db : Database) (user : User) (stored : user ∈ db.user)
    (resource_type resource_id permission : String)
    (closed : ¬ Public db resource_type resource_id permission) :
    user ∈ get_users_with_access db resource_type resource_id permission ↔
      ∃ grant ∈ db.access_grant, grant.on resource_type resource_id permission ∧
        user.id ∈ grantUserIds db grant := by
  have selected : ∀ grant, grant ∈ db.access_grant.filter (fun grant =>
      decide (grant.resource_type = resource_type) && decide (grant.resource_id = resource_id) &&
        decide (grant.permission = permission)) ↔
      grant ∈ db.access_grant ∧ grant.on resource_type resource_id permission := by
    intro grant
    simp only [List.mem_filter, Bool.and_eq_true, decide_eq_true_eq, AccessGrant.on, and_assoc]
  unfold get_users_with_access
  dsimp only
  split
  · rename_i shared
    obtain ⟨grant, found, everyone⟩ := List.any_eq_true.mp shared
    obtain ⟨member, same⟩ := (selected grant).mp found
    exact absurd ⟨grant, member, same, everyone⟩ closed
  · have named : user.id ∈ (db.access_grant.filter (fun grant =>
        decide (grant.resource_type = resource_type) && decide (grant.resource_id = resource_id) &&
          decide (grant.permission = permission))).flatMap (grantUserIds db) ↔
        ∃ grant ∈ db.access_grant, grant.on resource_type resource_id permission ∧
          user.id ∈ grantUserIds db grant := by
      simp only [List.mem_flatMap, selected, and_assoc]
    rw [← named]
    split
    · rename_i empty
      simp [List.isEmpty_iff.mp empty]
    · rw [get_users_by_user_ids, List.mem_filter, decide_eq_true_eq]
      exact and_iff_right stored

/-- The grant names the user, or a group of theirs that has a row. -/
def AccessGrant.reaches (grant : AccessGrant) (db : Database) (user_id : String) : Prop :=
  (grant.principal_type = "user" ∧ grant.principal_id = user_id) ∨
    (grant.principal_type = "group" ∧ Live db grant.principal_id ∧
      Member db grant.principal_id user_id)

/-- A membership in a group without a row matters to no grant on the resource: where it
carries one, another grant reaches the user. -/
def OrphansCovered (db : Database) (user_id resource_type resource_id permission : String) :
    Prop :=
  ∀ grant ∈ db.access_grant, grant.on resource_type resource_id permission →
    grant.principal_type = "group" → Member db grant.principal_id user_id →
      ¬ Live db grant.principal_id →
        ∃ other ∈ db.access_grant, other.on resource_type resource_id permission ∧
          other.reaches db user_id

theorem orphansCovered_of_rows {db : Database}
    (rows : ∀ member ∈ db.group_member, Live db member.group_id)
    (user_id resource_type resource_id permission : String) :
    OrphansCovered db user_id resource_type resource_id permission := by
  intro grant _ _ _ row orphan
  obtain ⟨member, stored, same, _⟩ := row
  exact absurd (same ▸ rows member stored) orphan

theorem reaches_of_admits {db : Database} {user_id : String} {grant : AccessGrant}
    (everyone : isPublic grant ≠ true)
    (admitted : grant.admits user_id (groupIds db user_id none)) :
    grant.reaches db user_id := by
  rcases admitted with ⟨kind, wildcard | direct⟩ | ⟨kind, inside⟩
  · exact absurd ((isPublic_iff grant).mpr ⟨kind, wildcard⟩) everyone
  · exact Or.inl ⟨kind, direct⟩
  · exact Or.inr ⟨kind, (mem_groupIds_none db user_id grant.principal_id).mp inside⟩

theorem admits_of_reaches {db : Database} {user_id : String} {grant : AccessGrant}
    (reached : grant.reaches db user_id) : grant.admits user_id (groupIds db user_id none) := by
  rcases reached with ⟨kind, direct⟩ | ⟨kind, inside⟩
  · exact Or.inl ⟨kind, Or.inr direct⟩
  · exact Or.inr ⟨kind, (mem_groupIds_none db user_id grant.principal_id).mpr inside⟩

theorem allowed_iff_reaches {db : Database}
    {user_id resource_type resource_id permission : String}
    (closed : ¬ Public db resource_type resource_id permission) :
    Allowed db user_id (groupIds db user_id none) resource_type resource_id permission ↔
      ∃ grant ∈ db.access_grant, grant.on resource_type resource_id permission ∧
        grant.reaches db user_id := by
  constructor
  · rintro ⟨grant, member, same, admitted⟩
    refine ⟨grant, member, same, reaches_of_admits ?_ admitted⟩
    exact fun everyone => closed ⟨grant, member, same, everyone⟩
  · rintro ⟨grant, member, same, reached⟩
    exact ⟨grant, member, same, admits_of_reaches reached⟩

theorem mem_grantUserIds_of_reaches {db : Database} {user_id : String} {grant : AccessGrant}
    (reached : grant.reaches db user_id) : user_id ∈ grantUserIds db grant := by
  rw [mem_grantUserIds]
  rcases reached with direct | ⟨kind, _, member⟩
  · exact Or.inl direct
  · exact Or.inr ⟨kind, member⟩

theorem get_users_with_access_iff (db : Database) (user : User) (stored : user ∈ db.user)
    (resource_type resource_id permission : String)
    (closed : ¬ Public db resource_type resource_id permission) :
    (user ∈ get_users_with_access db resource_type resource_id permission ↔
        has_access db user.id resource_type resource_id permission none = true) ↔
      OrphansCovered db user.id resource_type resource_id permission := by
  rw [has_access_iff, allowed_iff_reaches closed,
    mem_get_users_with_access_iff db user stored resource_type resource_id permission closed]
  constructor
  · intro agree grant member same kind row _
    have listed := (mem_grantUserIds db user.id grant).mpr (Or.inr ⟨kind, row⟩)
    exact agree.mp ⟨grant, member, same, listed⟩
  · intro covered
    constructor
    · rintro ⟨grant, member, same, listed⟩
      rcases (mem_grantUserIds db user.id grant).mp listed with direct | ⟨kind, row⟩
      · exact ⟨grant, member, same, Or.inl direct⟩
      · by_cases live : Live db grant.principal_id
        · exact ⟨grant, member, same, Or.inr ⟨kind, live, row⟩⟩
        · exact covered grant member same kind row live
    · rintro ⟨grant, member, same, reached⟩
      exact ⟨grant, member, same, mem_grantUserIds_of_reaches reached⟩

/-- The deciders give one answer for a user, at every resource and set of groups. -/
structure DecidersAgree (db : Database) (user : User) (resource_type permission : String) :
    Prop where
  listed : ∀ (resource_ids : List String) (user_group_ids : Option (List String)),
    ∀ resource_id ∈ resource_ids,
      (has_access db user.id resource_type resource_id permission user_group_ids = true ↔
        resource_id ∈ get_accessible_resource_ids db user.id resource_type resource_ids permission
          user_group_ids)
  in_memory : ∀ (resource_id : String) (user_group_ids : Option (List String)),
    has_access db user.id resource_type resource_id permission user_group_ids = true ↔
      inMemoryAccess db user.id permission
        ((get_grants_by_resource db resource_type resource_id).map grantDict) user_group_ids =
          .ok true
  filtered : ∀ (documents : List Document) (group_ids : List String), ∀ document ∈ documents,
    (document ∈ has_permission_filter db documents (some user.id) group_ids resource_type
        permission ↔
      document.user_id = some user.id ∨
        has_access db user.id resource_type document.id permission (some group_ids) = true)
  users : ∀ resource_id : String, ¬ Public db resource_type resource_id permission →
    (user ∈ get_users_with_access db resource_type resource_id permission ↔
      has_access db user.id resource_type resource_id permission none = true)

/-- The deciders agree for a stored user exactly when, at every resource that is not
public, the memberships in groups without a row are covered. -/
theorem deciders_agree_iff (db : Database) (user : User) (stored : user ∈ db.user)
    (resource_type permission : String) (writable : permission = "read" ∨ permission = "write") :
    DecidersAgree db user resource_type permission ↔
      ∀ resource_id : String, ¬ Public db resource_type resource_id permission →
        OrphansCovered db user.id resource_type resource_id permission := by
  constructor
  · intro agree resource_id closed
    exact (get_users_with_access_iff db user stored resource_type resource_id permission closed).mp
      (agree.users resource_id closed)
  · intro covered
    refine ⟨?_, ?_, ?_, ?_⟩
    · intro resource_ids user_group_ids resource_id member
      rw [has_access_iff, mem_get_accessible_resource_ids_iff]
      exact (and_iff_right member).symm
    · intro resource_id user_group_ids
      rw [has_access_iff, inMemoryAccess_iff]
    · intro documents group_ids document member
      rw [has_access_iff, mem_has_permission_filter_iff db documents user group_ids resource_type
        permission writable document]
      exact and_iff_right member
    · intro resource_id closed
      exact (get_users_with_access_iff db user stored resource_type resource_id permission
        closed).mpr (covered resource_id closed)

def reader : User := { id := "ann", role := "user", named := by decide }

def sharedModel : Database where
  access_grant := [{
    id := "1"
    resource_type := "model"
    resource_id := "m"
    principal_type := "group"
    principal_id := "team"
    permission := "read"
    created_at := 0 }]
  group := [⟨"team"⟩]
  group_member := [⟨"team", "ann"⟩]
  user := [reader]

theorem sharedModel_deciders_agree : DecidersAgree sharedModel reader "model" "read" := by
  have rows : ∀ member ∈ sharedModel.group_member, Live sharedModel member.group_id := by
    unfold Live
    decide
  exact (deciders_agree_iff sharedModel reader List.mem_cons_self "model" "read"
    (Or.inl rfl)).mpr (fun resource_id _ => orphansCovered_of_rows rows "ann" "model" resource_id
      "read")

/-- Once the group is deleted its member is listed among the users with access, and denied. -/
theorem sharedModel_group_deleted :
    reader ∈ (delete_group_by_id sharedModel "team").user ∧
      ¬ DecidersAgree (delete_group_by_id sharedModel "team") reader "model" "read" := by
  refine ⟨List.mem_cons_self, ?_⟩
  intro agree
  have closed : ¬ Public (delete_group_by_id sharedModel "team") "model" "m" "read" := by
    unfold Public AccessGrant.on
    decide
  have denied := (agree.users "m" closed).mp List.mem_cons_self
  exact absurd denied (by decide)

/-- The grant is to the user or to one of the groups. -/
def AccessGrant.names (grant : AccessGrant) (user_id : String) (group_ids : List String) : Prop :=
  (grant.principal_type = "user" ∧ grant.principal_id = user_id) ∨
    (grant.principal_type = "group" ∧ grant.principal_id ∈ group_ids)

/-- Some grant of the permission on the resource names the user or one of the groups. -/
def Named (db : Database) (user_id : String) (group_ids : List String)
    (resource_type resource_id permission : String) : Prop :=
  ∃ grant ∈ db.access_grant, grant.on resource_type resource_id permission ∧
    grant.names user_id group_ids

/-- The user can read the document, cannot write it, does not own it, and not everyone can
read it. -/
structure ReadOnlyTo (db : Database) (user : User) (group_ids : List String)
    (resource_type : String) (document : Document) : Prop where
  not_owner : document.user_id ≠ some user.id
  reads : has_access db user.id resource_type document.id "read" (some group_ids) = true
  not_writes : has_access db user.id resource_type document.id "write" (some group_ids) = false
  not_public : ¬ Public db resource_type document.id "read"

/-- The filter keeps the document exactly when it is read-only to the user. -/
def FilterExact (db : Database) (user : User) (group_ids : List String) (resource_type : String)
    (document : Document) : Prop :=
  ∀ documents : List Document, document ∈ documents →
    (document ∈ has_read_only_permission_filter db documents (some user.id) group_ids
        resource_type ↔
      ReadOnlyTo db user group_ids resource_type document)

theorem admits_iff (grant : AccessGrant) (user_id : String) (group_ids : List String) :
    grant.admits user_id group_ids ↔ isPublic grant = true ∨ grant.names user_id group_ids := by
  rw [AccessGrant.admits, AccessGrant.names, isPublic_iff, and_or_left, or_assoc]

theorem allowed_iff_named (db : Database) (user_id : String) (group_ids : List String)
    (resource_type resource_id permission : String) :
    Allowed db user_id group_ids resource_type resource_id permission ↔
      Public db resource_type resource_id permission ∨
        Named db user_id group_ids resource_type resource_id permission := by
  simp only [Allowed, Public, Named, admits_iff, and_or_left, exists_or]

section Filter

variable (db : Database) (user : User) (group_ids : List String) (resource_type : String)

theorem filterPrincipal_iff (grant : AccessGrant) :
    filterPrincipal (some user.id) group_ids grant = true ↔ grant.names user.id group_ids := by
  rw [filterPrincipal, filterUser_some, Option.any_some, Bool.or_eq_true, isGroup_iff,
    isDirect_iff, AccessGrant.names]

theorem grantExists_named_iff (permission : String) (document : Document) :
    grantExists db resource_type permission document (filterPrincipal (some user.id) group_ids) =
        true ↔ Named db user.id group_ids resource_type document.id permission := by
  simp only [grantExists, List.any_eq_true, Bool.and_eq_true, decide_eq_true_eq,
    filterPrincipal_iff, Named, AccessGrant.on, and_assoc]

theorem grantExists_public_iff (permission : String) (document : Document) :
    grantExists db resource_type permission document isPublic = true ↔
      Public db resource_type document.id permission := by
  simp only [grantExists, List.any_eq_true, Bool.and_eq_true, decide_eq_true_eq, Public,
    AccessGrant.on, and_assoc]

theorem other_owner_iff (document : Document) :
    ((filterUser (some user.id)).all (fun id =>
        (document.user_id.map (fun owner => decide (owner ≠ id))).getD false)) = true ↔
      document.user_id.isSome = true ∧ document.user_id ≠ some user.id := by
  rw [filterUser_some, Option.all_some]
  cases document.user_id <;> simp

theorem mem_has_read_only_permission_filter_iff (documents : List Document)
    (document : Document) :
    document ∈ has_read_only_permission_filter db documents (some user.id) group_ids
        resource_type ↔
      document ∈ documents ∧ Named db user.id group_ids resource_type document.id "read" ∧
        ¬ Named db user.id group_ids resource_type document.id "write" ∧
        ¬ Public db resource_type document.id "read" ∧
        document.user_id.isSome = true ∧ document.user_id ≠ some user.id := by
  rw [has_read_only_permission_filter, List.mem_filter]
  simp only [Bool.and_eq_true, Bool.not_eq_true', ← Bool.not_eq_true, other_owner_iff,
    grantExists_named_iff, grantExists_public_iff, and_assoc]

theorem readOnlyTo_iff (document : Document) :
    ReadOnlyTo db user group_ids resource_type document ↔
      document.user_id ≠ some user.id ∧
        Named db user.id group_ids resource_type document.id "read" ∧
        ¬ Named db user.id group_ids resource_type document.id "write" ∧
        ¬ Public db resource_type document.id "read" ∧
        ¬ Public db resource_type document.id "write" := by
  have reads := has_access_iff db user.id resource_type document.id "read" (some group_ids)
  have writes := has_access_iff db user.id resource_type document.id "write" (some group_ids)
  simp only [groupIds, Option.getD_some, allowed_iff_named] at reads writes
  constructor
  · rintro ⟨not_owner, readable, unwritable, closed⟩
    have kept := not_or.mp (fun allowed => Bool.false_ne_true (unwritable.symm.trans
      (writes.mpr allowed)))
    exact ⟨not_owner, (reads.mp readable).resolve_left closed, kept.2, closed, kept.1⟩
  · rintro ⟨not_owner, named, unnamed, closed, unwritten⟩
    refine ⟨not_owner, reads.mpr (Or.inr named), ?_, closed⟩
    rw [← Bool.not_eq_true, writes]
    exact not_or.mpr ⟨unwritten, unnamed⟩

/-- On a document with an owner the filter goes wrong just where it would keep what everyone
may write; one without an owner it never keeps. -/
theorem read_only_filter_iff (document : Document) :
    FilterExact db user group_ids resource_type document ↔
      document.user_id = some user.id ∨ Public db resource_type document.id "read" ∨
        ¬ Named db user.id group_ids resource_type document.id "read" ∨
        Named db user.id group_ids resource_type document.id "write" ∨
        (document.user_id.isSome = true ↔ ¬ Public db resource_type document.id "write") := by
  have exact_iff : FilterExact db user group_ids resource_type document ↔
      (document ∈ has_read_only_permission_filter db [document] (some user.id) group_ids
          resource_type ↔
        ReadOnlyTo db user group_ids resource_type document) := by
    constructor
    · intro exact_filter
      exact exact_filter [document] (List.mem_singleton.mpr rfl)
    · intro same documents member
      rw [← same, mem_has_read_only_permission_filter_iff,
        mem_has_read_only_permission_filter_iff, and_iff_right member,
        and_iff_right (List.mem_singleton.mpr rfl)]
  rw [exact_iff, mem_has_read_only_permission_filter_iff, readOnlyTo_iff,
    and_iff_right (List.mem_singleton.mpr rfl)]
  tauto

end Filter

def openNote : Database where
  access_grant := [
    { id := "1", resource_type := "note", resource_id := "n", principal_type := "user"
      principal_id := "ann", permission := "read", created_at := 0 },
    { id := "2", resource_type := "note", resource_id := "n", principal_type := "user"
      principal_id := "*", permission := "write", created_at := 0 }]
  group := []
  group_member := []
  user := [reader]

/-- It is listed as read-only to a user who may write it. -/
theorem openNote_listed_read_only :
    has_read_only_permission_filter openNote [⟨"n", some "bob"⟩] (some reader.id) [] "note" =
        [⟨"n", some "bob"⟩] ∧
      has_access openNote reader.id "note" "n" "write" (some []) = true ∧
      ¬ FilterExact openNote reader [] "note" ⟨"n", some "bob"⟩ := by
  refine ⟨by decide, by decide, ?_⟩
  intro exact_filter
  have listed := (exact_filter [⟨"n", some "bob"⟩] (List.mem_singleton.mpr rfl)).mp (by decide)
  exact absurd listed.not_writes (by decide)

end OpenWebui.AccessGrants
