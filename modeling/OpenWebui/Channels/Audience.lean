import OpenWebui.AccessGrants.Deciders
import OpenWebui.Base.Like
import OpenWebui.Channels.Requests

/-! `get_channel_members_by_id`: the members that a standard channel lists, page by page, beside the
users its grants let read it. -/

namespace OpenWebui.Channels

open AccessGrants (User AccessGrant get_users_with_access get_users_by_user_ids Member Public isPublic
  get_grants_by_resource)

/-- What `get_users` is asked for. -/
structure UserFilter where
  query : Option String := none
  channel_id : Option String := none
  user_ids : Option (List String) := none
  group_ids : Option (List String) := none
  roles : Option (List String) := none
  order_by : Option String := none
  direction : Option String := none

structure Profile where
  name : String
  email : String

/-- How the database orders selected rows: those of one statement always in the same order. -/
structure Engine where
  arrange : Option (String × Bool) → List User → List User
  perm : ∀ order users, (arrange order users).Perm users

/-- `not filter`. -/
def UserFilter.isEmpty (filter : UserFilter) : Bool :=
  filter.query.isNone && filter.channel_id.isNone && filter.user_ids.isNone &&
    filter.group_ids.isNone && filter.roles.isNone && filter.order_by.isNone &&
      filter.direction.isNone

/-- The column of `ORDER BY`, and whether it ascends. -/
def UserFilter.order (filter : UserFilter) : Option (String × Bool) :=
  if filter.isEmpty then some ("created_at", false)
  else
    match filter.order_by with
    | none => none
    | some order_by =>
      if "group_id:".toList.isPrefixOf order_by.toList ∨
          order_by ∈ ["name", "email", "created_at", "last_active_at", "updated_at", "role"] then
        some (order_by, decide (filter.direction = some "asc"))
      else none

section

variable (engine : Engine) (profiles : String → Profile) (tables : Tables)

def matchesQuery (query : String) (user : User) : Bool :=
  let pattern := ("%" ++ query ++ "%").toList
  Like.like pattern (profiles user.id).name.toList || Like.like pattern (profiles user.id).email.toList

def inChannel (channel_id : String) (user : User) : Bool :=
  tables.member.any (fun member => decide (member.user_id = user.id ∧ member.channel_id = channel_id))

def inGroups (group_ids : List String) (user : User) : Bool :=
  tables.access.group_member.any (fun member =>
    decide (member.user_id = user.id ∧ member.group_id ∈ group_ids))

def hasRole (roles : List String) (user : User) : Bool :=
  let include_roles := roles.filter (fun role => !(['!'].isPrefixOf role.toList))
  let exclude_roles := (roles.filter (fun role => ['!'].isPrefixOf role.toList)).map (fun role =>
    String.ofList role.toList.tail)
  (include_roles.isEmpty || decide (user.role ∈ include_roles)) &&
    (exclude_roles.isEmpty || decide (user.role ∉ exclude_roles))

def filled (items : Option (List String)) : Option (List String) :=
  items.filter (fun items => !items.isEmpty)

def selects (filter : UserFilter) (user : User) : Bool :=
  (given filter.query).all (fun query => matchesQuery profiles query user) &&
    (given filter.channel_id).all (fun channel_id => inChannel tables channel_id user) &&
    (filled filter.user_ids).all (fun user_ids => decide (user.id ∈ user_ids)) &&
    (filled filter.group_ids).all (fun group_ids => inGroups tables group_ids user) &&
    (filled filter.roles).all (fun roles => hasRole roles user)

def get_users (filter : UserFilter) (skip limit : Option Nat) : List User × Nat :=
  if filter.user_ids = some [] ∧ filter.group_ids = some [] then ([], 0)
  else
    let users := engine.arrange filter.order (tables.access.user.filter (selects profiles tables filter))
    let offset := users.drop (skip.getD 0)
    (match limit with
      | none => offset
      | some limit => offset.take limit, users.length)

def get_channel_permitted_group_and_user_ids (access_grants : List AccessGrant) (permission : String) :
    Option (List String × List String) :=
  if permission = "read" ∧ access_grants.any (fun grant =>
      isPublic grant && decide (grant.permission = "read")) then none
  else
    let granted := access_grants.filter (fun grant => decide (grant.permission = permission))
    some
      (((granted.filter (fun grant =>
          decide (grant.principal_type = "user" ∧ grant.principal_id ≠ "*"))).map
        (fun grant => grant.principal_id)).eraseDups,
      ((granted.filter (fun grant => decide (grant.principal_type = "group"))).map
        (fun grant => grant.principal_id)).eraseDups)

def get_channel_users_with_access (channel_id permission : String) : List User :=
  get_users_with_access tables.access "channel" channel_id permission

def PAGE_ITEM_COUNT : Nat := 30

def memberFilter (id : String) (channel : Channel) (query order_by direction : Option String) :
    UserFilter :=
  let filter : UserFilter :=
    { query := given query, order_by := given order_by, direction := given direction }
  if channel.type = some "group" then { filter with channel_id := some id }
  else
    let filter := { filter with roles := some ["!pending"] }
    match get_channel_permitted_group_and_user_ids
      (get_grants_by_resource tables.access "channel" id) "read" with
    | none => filter
    | some (user_ids, group_ids) =>
      { filter with user_ids := some user_ids, group_ids := some group_ids }

def get_channel_members_by_id (event : Event) (id : String) (query order_by direction : Option String)
    (page : Int) : Except HTTPException (List User × Nat) := do
  check_channels_access event
  let channel ← findChannel tables id
  let limit := PAGE_ITEM_COUNT
  let skip := ((max 1 page - 1) * limit).toNat
  checkUse tables event.caller id channel "read" true
  if channel.type = some "dm" then
    let fetched_users := get_users_by_user_ids tables.access (memberIds tables id)
    .ok (fetched_users, fetched_users.length)
  else
    .ok (get_users engine profiles tables (memberFilter tables id channel query order_by direction)
      (some skip) (some limit))

end

theorem flatMap_pages {α : Type} (items : List α) (size n : Nat) :
    (List.range n).flatMap (fun page => (items.drop (page * size)).take size) =
      items.take (n * size) := by
  induction n with
  | zero => simp
  | succ n ih =>
    rw [List.range_succ, List.flatMap_append, ih, List.flatMap_singleton, Nat.succ_mul, List.take_add]

theorem exists_page {α : Type} {items : List α} {size : Nat} (some_size : 0 < size) {item : α} :
    (∃ page, item ∈ (items.drop (page * size)).take size) ↔ item ∈ items := by
  constructor
  · rintro ⟨page, shown⟩
    exact List.mem_of_mem_drop (List.mem_of_mem_take shown)
  · intro member
    have whole : items.take (items.length * size) = items :=
      List.take_of_length_le (Nat.le_mul_of_pos_right _ some_size)
    rw [← whole, ← flatMap_pages, List.mem_flatMap] at member
    obtain ⟨page, _, shown⟩ := member
    exact ⟨page, shown⟩

section

variable (tables : Tables) (id : String) (user : User)

/-- A read grant on the channel. -/
def ReadGrant (grant : AccessGrant) : Prop :=
  grant ∈ tables.access.access_grant ∧ grant.on "channel" id "read"

/-- A grant is to the user. -/
def Named : Prop :=
  ∃ grant, ReadGrant tables id grant ∧ grant.principal_type = "user" ∧ grant.principal_id = user.id

/-- A grant is to a group that the user is a member of. -/
def Through : Prop :=
  ∃ grant, ReadGrant tables id grant ∧ grant.principal_type = "group" ∧
    Member tables.access grant.principal_id user.id

/-- The users whom the grants let read, but for those who are pending. -/
def Audience : Prop :=
  user ∈ tables.access.user ∧ user.role ≠ "pending" ∧
    (Public tables.access "channel" id "read" ∨ Named tables id user ∨ Through tables id user)

end

section

variable {engine : Engine} {profiles : String → Profile} {tables : Tables} {id : String} {user : User}

theorem hasRole_not_pending : hasRole ["!pending"] user = decide (user.role ≠ "pending") := by
  have included : ["!pending"].filter (fun role => !(['!'].isPrefixOf role.toList)) = [] := by decide
  have excluded : (["!pending"].filter (fun role => ['!'].isPrefixOf role.toList)).map (fun role =>
      String.ofList role.toList.tail) = ["pending"] := by decide
  rw [hasRole, included, excluded]
  simp

theorem mem_grants {grant : AccessGrant} :
    (grant ∈ get_grants_by_resource tables.access "channel" id ∧ grant.permission = "read") ↔
      ReadGrant tables id grant := by
  simp only [get_grants_by_resource, List.mem_filter, Bool.and_eq_true, decide_eq_true_eq, ReadGrant,
    AccessGrant.on, and_assoc]

theorem permitted_public (open_to_all : Public tables.access "channel" id "read") :
    get_channel_permitted_group_and_user_ids (get_grants_by_resource tables.access "channel" id) "read" =
      none := by
  obtain ⟨grant, stored, here, everyone⟩ := open_to_all
  have listed := mem_grants.mpr ⟨stored, here⟩
  rw [get_channel_permitted_group_and_user_ids, if_pos]
  refine ⟨rfl, List.any_eq_true.mpr ⟨grant, listed.1, ?_⟩⟩
  rw [everyone, listed.2]
  rfl

theorem permitted_closed (closed : ¬ Public tables.access "channel" id "read") :
    ∃ user_ids group_ids, get_channel_permitted_group_and_user_ids
        (get_grants_by_resource tables.access "channel" id) "read" = some (user_ids, group_ids) ∧
      (∀ user_id, user_id ∈ user_ids ↔ ∃ grant, ReadGrant tables id grant ∧
        grant.principal_type = "user" ∧ grant.principal_id = user_id) ∧
      (∀ group_id, group_id ∈ group_ids ↔ ∃ grant, ReadGrant tables id grant ∧
        grant.principal_type = "group" ∧ grant.principal_id = group_id) := by
  unfold get_channel_permitted_group_and_user_ids
  rw [if_neg]
  · refine ⟨_, _, rfl, fun user_id => ?_, fun group_id => ?_⟩
    · simp only [List.mem_eraseDups, List.mem_map, List.mem_filter, decide_eq_true_eq]
      constructor
      · rintro ⟨grant, ⟨granted, kind, _⟩, rfl⟩
        exact ⟨grant, mem_grants.mp granted, kind, rfl⟩
      · rintro ⟨grant, granted, kind, rfl⟩
        refine ⟨grant, ⟨mem_grants.mpr granted, kind, fun everyone => closed ?_⟩, rfl⟩
        exact ⟨grant, granted.1, granted.2, by simp [kind, everyone]⟩
    · simp only [List.mem_eraseDups, List.mem_map, List.mem_filter, decide_eq_true_eq]
      constructor
      · rintro ⟨grant, ⟨granted, kind⟩, rfl⟩
        exact ⟨grant, mem_grants.mp granted, kind, rfl⟩
      · rintro ⟨grant, granted, kind, rfl⟩
        exact ⟨grant, ⟨mem_grants.mpr granted, kind⟩, rfl⟩
  · rintro ⟨_, everyone⟩
    obtain ⟨grant, listed, both⟩ := List.any_eq_true.mp everyone
    obtain ⟨everyone, reads⟩ := Bool.and_eq_true_iff.mp both
    obtain ⟨stored, here⟩ := mem_grants.mp ⟨listed, of_decide_eq_true reads⟩
    exact closed ⟨grant, stored, here, everyone⟩

def allUsers (engine : Engine) (profiles : String → Profile) (tables : Tables) (filter : UserFilter) :
    List User :=
  if filter.user_ids = some [] ∧ filter.group_ids = some [] then []
  else engine.arrange filter.order (tables.access.user.filter (selects profiles tables filter))

theorem get_users_page (filter : UserFilter) (skip limit : Nat) :
    (get_users engine profiles tables filter (some skip) (some limit)).1 =
      ((allUsers engine profiles tables filter).drop skip).take limit := by
  unfold get_users allUsers
  split
  · simp
  · rfl

theorem mem_arranged {filter : UserFilter} :
    user ∈ engine.arrange filter.order (tables.access.user.filter (selects profiles tables filter)) ↔
      user ∈ tables.access.user ∧ selects profiles tables filter user = true := by
  rw [(engine.perm _ _).mem_iff, List.mem_filter]

theorem inGroups_iff {group_ids : List String} :
    inGroups tables group_ids user = true ↔ ∃ group_id ∈ group_ids, Member tables.access group_id user.id := by
  simp only [inGroups, List.any_eq_true, decide_eq_true_eq, Member]
  constructor
  · rintro ⟨member, row, same, inside⟩
    exact ⟨member.group_id, inside, member, row, rfl, same⟩
  · rintro ⟨_, inside, member, row, rfl, same⟩
    exact ⟨member, row, same, inside⟩

/-- A direct grant of the channel. -/
def HasDirect (tables : Tables) (id : String) : Prop :=
  ∃ grant, ReadGrant tables id grant ∧ grant.principal_type = "user"

/-- A grant to a group. -/
def HasGroup (tables : Tables) (id : String) : Prop :=
  ∃ grant, ReadGrant tables id grant ∧ grant.principal_type = "group"

theorem filled_all {items : List String} {test : List String → Bool} :
    (filled (some items)).all test = true ↔ (items ≠ [] → test items = true) := by
  cases items with
  | nil => simp [filled]
  | cons first rest => simp [filled]

theorem memberFilter_standard {channel : Channel} (standard : channel.closed = false)
    (order_by direction : Option String) :
    ∃ filter, memberFilter tables id channel none order_by direction = filter ∧ filter.query = none ∧
      filter.channel_id = none ∧ filter.roles = some ["!pending"] ∧
        (filter.user_ids, filter.group_ids) =
          match get_channel_permitted_group_and_user_ids
            (get_grants_by_resource tables.access "channel" id) "read" with
          | none => (none, none)
          | some (user_ids, group_ids) => (some user_ids, some group_ids) := by
  have no_group : channel.type ≠ some "group" := by
    intro kind
    simp [Channel.closed, kind] at standard
  refine ⟨_, rfl, ?_⟩
  unfold memberFilter
  rw [if_neg no_group]
  cases get_channel_permitted_group_and_user_ids
    (get_grants_by_resource tables.access "channel" id) "read" with
  | none => exact ⟨rfl, rfl, rfl, rfl⟩
  | some ids => exact ⟨rfl, rfl, rfl, rfl⟩

theorem mem_allUsers_public {channel : Channel} (standard : channel.closed = false)
    (open_to_all : Public tables.access "channel" id "read") (order_by direction : Option String) :
    user ∈ allUsers engine profiles tables (memberFilter tables id channel none order_by direction) ↔
      user ∈ tables.access.user ∧ user.role ≠ "pending" := by
  obtain ⟨filter, same, query, channel_id, roles, ids⟩ :=
    @memberFilter_standard tables id channel standard order_by direction
  rw [permitted_public open_to_all] at ids
  obtain ⟨user_ids, group_ids⟩ := Prod.mk.inj ids
  rw [same, allUsers, if_neg (by rw [user_ids]; simp), mem_arranged, selects, query, channel_id, user_ids,
    group_ids, roles]
  simp [given, filled, hasRole_not_pending]

theorem mem_allUsers_closed {channel : Channel} (standard : channel.closed = false)
    (closed : ¬ Public tables.access "channel" id "read") (order_by direction : Option String) :
    user ∈ allUsers engine profiles tables (memberFilter tables id channel none order_by direction) ↔
      user ∈ tables.access.user ∧ user.role ≠ "pending" ∧
        (HasDirect tables id ∨ HasGroup tables id) ∧ (HasDirect tables id → Named tables id user) ∧
          (HasGroup tables id → Through tables id user) := by
  obtain ⟨user_ids, group_ids, permitted, direct, through⟩ := permitted_closed closed
  obtain ⟨filter, same, query, channel_id, roles, ids⟩ :=
    @memberFilter_standard tables id channel standard order_by direction
  rw [permitted] at ids
  obtain ⟨given_users, given_groups⟩ := Prod.mk.inj ids
  have some_direct : HasDirect tables id ↔ user_ids ≠ [] := by
    constructor
    · rintro ⟨grant, granted, kind⟩
      exact List.ne_nil_of_mem ((direct _).mpr ⟨grant, granted, kind, rfl⟩)
    · intro some_id
      obtain ⟨user_id, listed⟩ := List.exists_mem_of_ne_nil _ some_id
      obtain ⟨grant, granted, kind, _⟩ := (direct user_id).mp listed
      exact ⟨grant, granted, kind⟩
  have some_group : HasGroup tables id ↔ group_ids ≠ [] := by
    constructor
    · rintro ⟨grant, granted, kind⟩
      exact List.ne_nil_of_mem ((through _).mpr ⟨grant, granted, kind, rfl⟩)
    · intro some_id
      obtain ⟨group_id, listed⟩ := List.exists_mem_of_ne_nil _ some_id
      obtain ⟨grant, granted, kind, _⟩ := (through group_id).mp listed
      exact ⟨grant, granted, kind⟩
  have by_group : inGroups tables group_ids user = true ↔ Through tables id user := by
    simp only [inGroups_iff, through, Through]
    constructor
    · rintro ⟨_, ⟨grant, granted, kind, rfl⟩, member⟩
      exact ⟨grant, granted, kind, member⟩
    · rintro ⟨grant, granted, kind, member⟩
      exact ⟨_, ⟨grant, granted, kind, rfl⟩, member⟩
  rw [same, allUsers, given_users, given_groups, some_direct, some_group]
  by_cases nobody : user_ids = [] ∧ group_ids = []
  · rw [if_pos (by rw [nobody.1, nobody.2]; exact ⟨rfl, rfl⟩)]
    simp [nobody.1, nobody.2]
  · rw [if_neg (by simpa using nobody), mem_arranged, selects, query, channel_id, given_users, given_groups,
      roles]
    have either : user_ids ≠ [] ∨ group_ids ≠ [] := not_and_or.mp nobody
    have shown : (filled (some ["!pending"])).all (fun roles => hasRole roles user) = true ↔
        user.role ≠ "pending" := by
      rw [filled_all, hasRole_not_pending, decide_eq_true_eq]
      exact ⟨fun holds => holds (by simp), fun holds _ => holds⟩
    simp only [Bool.and_eq_true, filled_all, by_group, decide_eq_true_eq, direct, shown, Named]
    constructor
    · rintro ⟨stored, ⟨⟨_, named⟩, through⟩, active⟩
      exact ⟨stored, active, either, named, through⟩
    · rintro ⟨stored, active, _, named, through⟩
      exact ⟨stored, ⟨⟨⟨rfl, rfl⟩, named⟩, through⟩, active⟩

/-- Where there are grants of both kinds, the same users meet them. -/
def Uniform (tables : Tables) (id : String) : Prop :=
  Public tables.access "channel" id "read" ∨ ¬ HasDirect tables id ∨ ¬ HasGroup tables id ∨
    ∀ user ∈ tables.access.user, user.role ≠ "pending" →
      (Named tables id user ↔ Through tables id user)

theorem hasDirect_of_named (named : Named tables id user) : HasDirect tables id := by
  obtain ⟨grant, granted, kind, _⟩ := named
  exact ⟨grant, granted, kind⟩

theorem hasGroup_of_through (through : Through tables id user) : HasGroup tables id := by
  obtain ⟨grant, granted, kind, _⟩ := through
  exact ⟨grant, granted, kind⟩

theorem all_users_iff {channel : Channel} (standard : channel.closed = false)
    (order_by direction : Option String) :
    (∀ user, user ∈ allUsers engine profiles tables
        (memberFilter tables id channel none order_by direction) ↔ Audience tables id user) ↔
      Uniform tables id := by
  by_cases open_to_all : Public tables.access "channel" id "read"
  · refine iff_of_true (fun user => ?_) (Or.inl open_to_all)
    rw [mem_allUsers_public standard open_to_all, Audience]
    simp only [open_to_all, true_or, and_true]
  · simp only [mem_allUsers_closed standard open_to_all, Audience, Uniform, open_to_all, false_or]
    constructor
    · intro same
      by_cases direct : HasDirect tables id
      · by_cases group : HasGroup tables id
        · refine Or.inr (Or.inr fun user stored active => ⟨fun named => ?_, fun through => ?_⟩)
          · exact ((same user).mpr ⟨stored, active, Or.inl named⟩).2.2.2.2 group
          · exact ((same user).mpr ⟨stored, active, Or.inr through⟩).2.2.2.1 direct
        · exact Or.inr (Or.inl group)
      · exact Or.inl direct
    · rintro uniform user
      constructor
      · rintro ⟨stored, active, direct | group, named, through⟩
        · exact ⟨stored, active, Or.inl (named direct)⟩
        · exact ⟨stored, active, Or.inr (through group)⟩
      · rintro ⟨stored, active, reads⟩
        refine ⟨stored, active, reads.imp hasDirect_of_named hasGroup_of_through, fun direct => ?_,
          fun group => ?_⟩
        · rcases reads with named | through
          · exact named
          · rcases uniform with no_direct | no_group | same
            · exact absurd direct no_direct
            · exact absurd (hasGroup_of_through through) no_group
            · exact (same user stored active).mpr through
        · rcases reads with named | through
          · rcases uniform with no_direct | no_group | same
            · exact absurd (hasDirect_of_named named) no_direct
            · exact absurd group no_group
            · exact (same user stored active).mp named
          · exact through

theorem stored_of_users_with_access {resource_type permission : String}
    (member : user ∈ get_users_with_access tables.access resource_type id permission) :
    user ∈ tables.access.user := by
  unfold get_users_with_access at member
  dsimp only at member
  split at member
  · exact (List.mem_filter.mp member).1
  · split at member
    · cases member
    · exact (List.mem_filter.mp member).1

theorem mem_get_users_with_access_public (open_to_all : Public tables.access "channel" id "read") :
    user ∈ get_users_with_access tables.access "channel" id "read" ↔
      user ∈ tables.access.user ∧ user.role ≠ "pending" := by
  obtain ⟨grant, stored, here, everyone⟩ := open_to_all
  unfold get_users_with_access
  dsimp only
  rw [if_pos]
  · rw [AccessGrants.get_users, List.mem_filter, decide_eq_true_eq]
  · refine List.any_eq_true.mpr ⟨grant, List.mem_filter.mpr ⟨stored, ?_⟩, everyone⟩
    simp [here.1, here.2.1, here.2.2]

theorem notified_iff : (user ∈ get_channel_users_with_access tables id "read" ∧ user.role ≠ "pending") ↔
    Audience tables id user := by
  rw [get_channel_users_with_access, Audience]
  by_cases stored : user ∈ tables.access.user
  · by_cases open_to_all : Public tables.access "channel" id "read"
    · rw [mem_get_users_with_access_public open_to_all]
      simp only [stored, open_to_all, true_and, true_or, and_true, and_self]
    · rw [AccessGrants.mem_get_users_with_access_iff tables.access user stored _ _ _ open_to_all]
      simp only [AccessGrants.mem_grantUserIds, stored, open_to_all, true_and, false_or, and_or_left,
        exists_or, Named, Through, ReadGrant, and_assoc]
      exact and_comm.trans and_or_left
  · exact iff_of_false (fun both => stored (stored_of_users_with_access both.1)) (fun all => stored all.1)

def onPage (engine : Engine) (profiles : String → Profile) (tables : Tables) (event : Event) (id : String)
    (order_by direction : Option String) (page : Int) : List User :=
  match get_channel_members_by_id engine profiles tables event id none order_by direction page with
  | .ok answer => answer.1
  | .error _ => []

/-- The pages list the audience, each user once, and these are the users who are notified. -/
structure ListsAudience (engine : Engine) (profiles : String → Profile) (tables : Tables) (event : Event)
    (id : String) (order_by direction : Option String) : Prop where
  shown : ∀ user, (∃ page, user ∈ onPage engine profiles tables event id order_by direction page) ↔
    Audience tables id user
  once : ∀ n : Nat, ((List.range n).flatMap (fun page : Nat =>
    (onPage engine profiles tables event id order_by direction ((page : Int) + 1)).map User.id)).Nodup
  notified : ∀ user, (∃ page, user ∈ onPage engine profiles tables event id order_by direction page) ↔
    user ∈ get_channel_users_with_access tables id "read" ∧ user.role ≠ "pending"

theorem onPage_eq {event : Event} {channel : Channel} (found : tables.channel.get? id = some channel)
    (standard : channel.closed = false) (enabled : check_channels_access event = .ok ())
    (reads : checkUse tables event.caller id channel "read" true = .ok ())
    (order_by direction : Option String) (page : Int) :
    onPage engine profiles tables event id order_by direction page =
      ((allUsers engine profiles tables (memberFilter tables id channel none order_by direction)).drop
        ((max 1 page - 1) * PAGE_ITEM_COUNT).toNat).take PAGE_ITEM_COUNT := by
  have no_dm : channel.type ≠ some "dm" := by
    intro kind
    simp [Channel.closed, kind] at standard
  have looked : findChannel tables id = .ok channel := by rw [findChannel, found]
  simp only [onPage, get_channel_members_by_id, enabled, looked, reads, bind, Except.bind, if_neg no_dm,
    get_users_page]

theorem page_offset (page : Nat) : ((max 1 ((page : Int) + 1) - 1) * PAGE_ITEM_COUNT).toNat =
    page * PAGE_ITEM_COUNT := by
  have first : max 1 ((page : Int) + 1) - 1 = page := by omega
  rw [first]
  exact Int.toNat_natCast (page * PAGE_ITEM_COUNT)

theorem allUsers_keys (keys : (tables.access.user.map User.id).Nodup) (filter : UserFilter) :
    ((allUsers engine profiles tables filter).map User.id).Nodup := by
  unfold allUsers
  split
  · exact List.nodup_nil
  · rw [((engine.perm _ _).map User.id).nodup_iff]
    exact List.Nodup.sublist (List.filter_sublist.map User.id) keys

end

/-- For a caller who is let in, the pages of a standard channel list its audience exactly where no two
kinds of grants are mixed, or the same users meet both. -/
theorem lists_audience_iff (engine : Engine) (profiles : String → Profile) (tables : Tables)
    (event : Event) (id : String) (order_by direction : Option String) (channel : Channel)
    (keys : (tables.access.user.map User.id).Nodup) (found : tables.channel.get? id = some channel)
    (standard : channel.closed = false) (enabled : check_channels_access event = .ok ())
    (reads : checkUse tables event.caller id channel "read" true = .ok ()) :
    ListsAudience engine profiles tables event id order_by direction ↔ Uniform tables id := by
  have on_page := @onPage_eq engine profiles tables id event channel found standard enabled reads order_by
    direction
  have on_some_page : ∀ user,
      (∃ page, user ∈ onPage engine profiles tables event id order_by direction page) ↔
        user ∈ allUsers engine profiles tables (memberFilter tables id channel none order_by direction) := by
    intro user
    rw [← exists_page (by decide : 0 < PAGE_ITEM_COUNT)]
    constructor
    · rintro ⟨page, shown⟩
      rw [on_page] at shown
      exact (exists_page (by decide)).mpr (List.mem_of_mem_drop (List.mem_of_mem_take shown))
    · rintro ⟨page, shown⟩
      exact ⟨page + 1, by rwa [on_page, page_offset]⟩
  rw [← @all_users_iff engine profiles tables id channel standard order_by direction]
  constructor
  · intro lists user
    rw [← on_some_page, lists.shown]
  · intro same
    refine ⟨fun user => (on_some_page user).trans (same user), fun n => ?_,
      fun user => (on_some_page user).trans ((same user).trans notified_iff.symm)⟩
    simp only [on_page, page_offset]
    rw [← List.map_flatMap, flatMap_pages]
    exact List.Nodup.sublist ((List.take_sublist _ _).map User.id) (allUsers_keys keys _)

def asStored : Engine := ⟨fun _ users => users, fun _ _ => List.Perm.refl _⟩

def byRoot : Event where
  enabled := true
  caller := ⟨"root", "admin", fun _ => .ok true⟩
  fresh := ⟨0, "", "", fun _ => ""⟩
  request := .reading

def annUser : User := ⟨"ann", "user", by simp⟩

def bobUser : User := ⟨"bob", "user", by decide⟩

def granted (grants : List AccessGrant) : Tables where
  access := ⟨grants, [⟨"team"⟩], [⟨"team", "bob"⟩], [annUser, bobUser]⟩
  channel := Dict.ofEntries [("c", ⟨"root", none⟩)]
  member := []
  webhook := .empty
  message := .empty
  reaction := []

def toAnn : AccessGrant := ⟨"1", "channel", "c", "user", "ann", "read", 0⟩

def toTeam : AccessGrant := ⟨"2", "channel", "c", "group", "team", "read", 0⟩

theorem direct_listed : ListsAudience asStored (fun id => ⟨id, id⟩) (granted [toAnn]) byRoot "c" none none := by
  refine (lists_audience_iff asStored _ (granted [toAnn]) byRoot "c" none none ⟨"root", none⟩ (by decide)
    rfl rfl rfl rfl).mpr (Or.inr (Or.inr (Or.inl ?_)))
  rintro ⟨grant, ⟨stored, _⟩, kind⟩
  obtain rfl := List.mem_singleton.mp stored
  exact absurd kind (by decide)

/-- Neither of the two is listed. -/
theorem mixed_unlisted : ¬ ListsAudience asStored (fun id => ⟨id, id⟩) (granted [toAnn, toTeam]) byRoot "c"
    none none := by
  intro lists
  have reads : Audience (granted [toAnn, toTeam]) "c" annUser :=
    ⟨List.mem_cons_self, by decide, Or.inr (Or.inl ⟨toAnn, ⟨List.mem_cons_self, rfl, rfl, rfl⟩, rfl, rfl⟩)⟩
  obtain ⟨page, shown⟩ := (lists.shown annUser).mpr reads
  have empty : (allUsers asStored (fun id => ⟨id, id⟩) (granted [toAnn, toTeam])
      (memberFilter (granted [toAnn, toTeam]) "c" ⟨"root", none⟩ none none none)).isEmpty = true := by decide
  rw [@onPage_eq _ _ (granted [toAnn, toTeam]) "c" byRoot ⟨"root", none⟩ rfl rfl rfl rfl,
    List.isEmpty_iff.mp empty] at shown
  simp at shown

end OpenWebui.Channels
