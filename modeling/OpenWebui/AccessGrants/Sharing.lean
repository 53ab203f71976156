import OpenWebui.AccessGrants.Queries

/-! The grants of a request: how a payload is normalised, what is stripped from it when the
user may not share that way, and what is stored. -/

namespace OpenWebui.AccessGrants

/-- An entry of a list of grants as a request carries it. The dump of a model has the fields
that are its attributes. -/
inductive Payload where
  | dict (fields : Fields)
  | model (attributes : Fields)
  | junk (value : Json)

/-- `grant.get(key) if isinstance(grant, dict) else getattr(grant, key, None)`. -/
def Payload.get (grant : Payload) (key : String) : Json :=
  match grant with
  | .dict fields => getField fields key
  | .model attributes => getField attributes key
  | .junk _ => .null

def Payload.fields? : Payload → Option Fields
  | .dict fields => some fields
  | .model attributes => some attributes
  | .junk _ => none

abbrev GrantKey := String × String × String

def grantKey (grant : Fields) : Option GrantKey :=
  match getField grant "principal_type", getField grant "principal_id",
    getField grant "permission" with
  | .str principal_type, .str principal_id, .str permission =>
    if principal_type ∉ ["user", "group", "anyone"] then none
    else if permission ∉ ["read", "write"] then none
    else if principal_id = "" then none
    else if principal_type = "anyone" ∧ (principal_id ≠ "*" ∨ permission ≠ "read") then none
    else some (principal_type, principal_id, permission)
  | _, _, _ => none

def grantId (grant : Fields) : Option String :=
  (getField grant "id").str?.filter (fun id => decide (id ≠ ""))

def addNormalized (deduped : List (GrantKey × Option String)) (grant : Payload) :
    List (GrantKey × Option String) :=
  match grant.fields? with
  | none => deduped
  | some fields =>
    match grantKey fields with
    | none => deduped
    | some key => Assoc.set deduped key (grantId fields)

def normalize_access_grants (access_grants : List Payload) : List (GrantKey × Option String) :=
  access_grants.foldl addNormalized []

def has_public_read_access_grant (access_grants : List Payload) : Bool :=
  (normalize_access_grants access_grants).any (fun grant =>
    decide (grant.1.1 = "user" ∧ grant.1.2.1 = "*" ∧ grant.1.2.2 = "read"))

def has_public_write_access_grant (access_grants : List Payload) : Bool :=
  (normalize_access_grants access_grants).any (fun grant =>
    decide (grant.1.1 = "user" ∧ grant.1.2.1 = "*" ∧ grant.1.2.2 = "write"))

def has_anyone_read_access_grant (access_grants : List Payload) : Bool :=
  (normalize_access_grants access_grants).any (fun grant =>
    decide (grant.1.1 = "anyone" ∧ grant.1.2.1 = "*" ∧ grant.1.2.2 = "read"))

def has_user_access_grant (access_grants : List Payload) : Bool :=
  (normalize_access_grants access_grants).any (fun grant =>
    decide (grant.1.1 = "user" ∧ grant.1.2.1 ≠ "*"))

def strip_user_access_grants (access_grants : List Payload) : List Payload :=
  access_grants.filter (fun grant =>
    decide (¬ (grant.get "principal_type" = .str "user" ∧ grant.get "principal_id" ≠ .str "*")))

def strip_anyone_access_grants (access_grants : List Payload) : List Payload :=
  access_grants.filter (fun grant => decide (grant.get "principal_type" ≠ .str "anyone"))

def stripPublic (access_grants : List Payload) : List Payload :=
  access_grants.filter (fun grant =>
    decide (¬ (grant.get "principal_type" = .str "user" ∧ grant.get "principal_id" = .str "*")))

def stripGroups (access_grants : List Payload) : List Payload :=
  access_grants.filter (fun grant => decide (grant.get "principal_type" ≠ .str "group"))

/-- `if found and not await has_permission(...): access_grants = stripped`. -/
def stripUnless (found : Bool) (allowed : Except PyError Bool) (stripped access_grants : List Payload) :
    Except PyError (List Payload) :=
  if found then allowed.map (fun allowed => if allowed then access_grants else stripped)
  else .ok access_grants

def anyoneAllowed (has_permission : String → Except PyError Bool) (user_role : String)
    (anyone_permission_key : Option String) : Except PyError Bool :=
  match anyone_permission_key.filter (fun key => decide (key ≠ "")) with
  | none => .ok false
  | some key => if user_role = "admin" then .ok true else has_permission key

/-- The grants that are left, with the answers of `has_permission` for the user. -/
def filter_allowed_access_grants (has_permission : String → Except PyError Bool)
    (user_role : String) (access_grants : List Payload) (public_permission_key : String)
    (anyone_permission_key : Option String) : Except PyError (List Payload) :=
  if access_grants.isEmpty then .ok access_grants
  else do
    let access_grants ← stripUnless (has_anyone_read_access_grant access_grants)
      (anyoneAllowed has_permission user_role anyone_permission_key)
      (strip_anyone_access_grants access_grants) access_grants
    if user_role = "admin" then .ok access_grants
    else do
      let access_grants ← stripUnless
        (has_public_read_access_grant access_grants || has_public_write_access_grant access_grants)
        (has_permission public_permission_key) (stripPublic access_grants) access_grants
      let access_grants ← stripUnless (has_user_access_grant access_grants)
        (has_permission "access_grants.allow_users") (strip_user_access_grants access_grants)
        access_grants
      stripUnless (access_grants.any (fun grant =>
          decide (grant.get "principal_type" = .str "group")))
        (has_permission "access_grants.allow_groups") (stripGroups access_grants) access_grants

def grantRow (resource_type resource_id id : String) (created_at : Int) (key : GrantKey) :
    AccessGrant where
  id := id
  resource_type := resource_type
  resource_id := resource_id
  principal_type := key.1
  principal_id := key.2.1
  permission := key.2.2
  created_at := created_at

def set_access_grants (uuid : Nat → String) (now : Int) (db : Database)
    (resource_type resource_id : String) (access_grants : List Payload) : Database :=
  { db with access_grant :=
      db.access_grant.filter (fun grant =>
        decide (¬ (grant.resource_type = resource_type ∧ grant.resource_id = resource_id))) ++
      (normalize_access_grants access_grants).mapIdx (fun place grant =>
        grantRow resource_type resource_id (uuid place) now grant.1) }

def Payload.key? (grant : Payload) : Option GrantKey := grant.fields?.bind grantKey

/-- A list of entries asks for a grant. -/
def Asks (access_grants : List Payload) (key : GrantKey) : Prop :=
  ∃ grant ∈ access_grants, grant.key? = some key

theorem addNormalized_keys (deduped : List (GrantKey × Option String)) (grant : Payload)
    (key : GrantKey) :
    key ∈ Assoc.keys (addNormalized deduped grant) ↔
      key ∈ Assoc.keys deduped ∨ grant.key? = some key := by
  unfold addNormalized Payload.key?
  cases grant.fields? with
  | none => simp
  | some fields =>
    cases valid : grantKey fields with
    | none => simp [valid]
    | some found => simp [valid, or_comm, eq_comm]

theorem mem_normalize_iff (access_grants : List Payload) (key : GrantKey) :
    key ∈ Assoc.keys (normalize_access_grants access_grants) ↔ Asks access_grants key := by
  have general : ∀ (entries : List Payload) (deduped : List (GrantKey × Option String)),
      key ∈ Assoc.keys (entries.foldl addNormalized deduped) ↔
        key ∈ Assoc.keys deduped ∨ Asks entries key := by
    intro entries
    induction entries with
    | nil => intro deduped; simp [Asks]
    | cons grant rest ih =>
      intro deduped
      rw [List.foldl_cons, ih, addNormalized_keys, or_assoc]
      simp [Asks]
  rw [normalize_access_grants, general]
  simp

/-- A valid grant, and the entry that asks for it. -/
structure AskedBy (grant : Payload) (key : GrantKey) : Prop where
  principal_type : grant.get "principal_type" = .str key.1
  principal_id : grant.get "principal_id" = .str key.2.1
  type : key.1 = "user" ∨ key.1 = "group" ∨ key.1 = "anyone"
  permission : key.2.2 = "read" ∨ key.2.2 = "write"
  anyone : key.1 = "anyone" → key.2.1 = "*" ∧ key.2.2 = "read"

theorem askedBy_of_key? {grant : Payload} {key : GrantKey} (asked : grant.key? = some key) :
    AskedBy grant key := by
  have read : ∀ fields : Fields, grantKey fields = some key →
      AskedBy (.dict fields) key ∧ AskedBy (.model fields) key := by
    intro fields valid
    unfold grantKey at valid
    split at valid
    · rename_i principal_type principal_id permission type id _
      split at valid
      · cases valid
      · rename_i known
        split at valid
        · cases valid
        · rename_i permitted
          split at valid
          · cases valid
          · split at valid
            · cases valid
            · rename_i open_
              obtain rfl := Option.some.inj valid
              have known : principal_type = "user" ∨ principal_type = "group" ∨
                  principal_type = "anyone" := by simpa using Decidable.of_not_not known
              have permitted : permission = "read" ∨ permission = "write" := by
                simpa using Decidable.of_not_not permitted
              have wild : principal_type = "anyone" → principal_id = "*" ∧ permission = "read" := by
                intro anyone
                simpa [anyone] using open_
              exact ⟨⟨type, id, known, permitted, wild⟩, ⟨type, id, known, permitted, wild⟩⟩
    · cases valid
  cases grant with
  | dict fields => exact (read fields asked).1
  | model attributes => exact (read attributes asked).2
  | junk value => simp [Payload.key?, Payload.fields?] at asked

theorem asks_filter {keep : Payload → Bool} (shared : GrantKey → Prop)
    (agree : ∀ grant key, Payload.key? grant = some key → (keep grant = true ↔ ¬ shared key))
    (access_grants : List Payload) (key : GrantKey) :
    Asks (access_grants.filter keep) key ↔ Asks access_grants key ∧ ¬ shared key := by
  constructor
  · rintro ⟨grant, member, asked⟩
    obtain ⟨member, kept⟩ := List.mem_filter.mp member
    exact ⟨⟨grant, member, asked⟩, (agree grant key asked).mp kept⟩
  · rintro ⟨⟨grant, member, asked⟩, private_⟩
    exact ⟨grant, List.mem_filter.mpr ⟨member, (agree grant key asked).mpr private_⟩, asked⟩

theorem asks_stripUnless {found : Bool} {allowed : Except PyError Bool}
    {stripped access_grants result : List Payload} {shared : GrantKey → Prop}
    (done : stripUnless found allowed stripped access_grants = .ok result)
    (strips : ∀ key, Asks stripped key ↔ Asks access_grants key ∧ ¬ shared key)
    (detects : ∀ key, Asks access_grants key → shared key → found = true) (key : GrantKey) :
    Asks result key ↔ Asks access_grants key ∧ (shared key → allowed = .ok true) := by
  unfold stripUnless at done
  split at done
  · obtain ⟨answer, rfl, result_eq⟩ := map_eq_ok.mp done
    cases answer with
    | true => simp_all
    | false =>
      obtain rfl : stripped = result := result_eq
      rw [strips]
      simp
  · obtain rfl := Except.ok.inj done
    rename_i missed
    exact ⟨fun asked => ⟨asked, fun kind => absurd (detects key asked kind) missed⟩, And.left⟩

theorem any_normalize_of_asks (test : GrantKey → Bool) {access_grants : List Payload}
    {key : GrantKey} (asked : Asks access_grants key) (met : test key = true) :
    (normalize_access_grants access_grants).any (fun grant => test grant.1) = true := by
  obtain ⟨entry, member, same⟩ := List.mem_map.mp ((mem_normalize_iff access_grants key).mpr asked)
  exact List.any_eq_true.mpr ⟨entry, member, same ▸ met⟩

section Detection

variable {access_grants : List Payload} {key : GrantKey} (asked : Asks access_grants key)

include asked

theorem has_anyone_of_asks (anyone : key.1 = "anyone") :
    has_anyone_read_access_grant access_grants = true := by
  have ⟨grant, _, asking⟩ := asked
  have wild := (askedBy_of_key? asking).anyone anyone
  exact any_normalize_of_asks
    (fun key => decide (key.1 = "anyone" ∧ key.2.1 = "*" ∧ key.2.2 = "read")) asked
    (by simp [anyone, wild])

theorem has_public_of_asks (everyone : key.1 = "user" ∧ key.2.1 = "*") :
    (has_public_read_access_grant access_grants || has_public_write_access_grant access_grants) =
      true := by
  have ⟨grant, _, asking⟩ := asked
  rw [Bool.or_eq_true]
  rcases (askedBy_of_key? asking).permission with read | write
  · exact Or.inl (any_normalize_of_asks
      (fun key => decide (key.1 = "user" ∧ key.2.1 = "*" ∧ key.2.2 = "read")) asked
      (by simp [everyone, read]))
  · exact Or.inr (any_normalize_of_asks
      (fun key => decide (key.1 = "user" ∧ key.2.1 = "*" ∧ key.2.2 = "write")) asked
      (by simp [everyone, write]))

theorem has_user_of_asks (user : key.1 = "user" ∧ key.2.1 ≠ "*") :
    has_user_access_grant access_grants = true :=
  any_normalize_of_asks (fun key => decide (key.1 = "user" ∧ key.2.1 ≠ "*")) asked (by simp [user])

theorem has_group_of_asks (group : key.1 = "group") :
    access_grants.any (fun grant => decide (grant.get "principal_type" = .str "group")) = true := by
  obtain ⟨grant, member, asking⟩ := asked
  refine List.any_eq_true.mpr ⟨grant, member, ?_⟩
  simp [(askedBy_of_key? asking).principal_type, group]

end Detection

section Stripping

variable (access_grants : List Payload) (key : GrantKey)

theorem asks_strip_anyone : Asks (strip_anyone_access_grants access_grants) key ↔
    Asks access_grants key ∧ ¬ key.1 = "anyone" :=
  asks_filter (fun key => key.1 = "anyone")
    (fun grant key asked => by simp [(askedBy_of_key? asked).principal_type]) access_grants key

theorem asks_stripPublic : Asks (stripPublic access_grants) key ↔
    Asks access_grants key ∧ ¬ (key.1 = "user" ∧ key.2.1 = "*") :=
  asks_filter (fun key => key.1 = "user" ∧ key.2.1 = "*")
    (fun grant key asked => by
      rw [decide_eq_true_iff, (askedBy_of_key? asked).principal_type,
        (askedBy_of_key? asked).principal_id]
      simp only [Json.str.injEq])
    access_grants key

theorem asks_strip_user : Asks (strip_user_access_grants access_grants) key ↔
    Asks access_grants key ∧ ¬ (key.1 = "user" ∧ key.2.1 ≠ "*") :=
  asks_filter (fun key => key.1 = "user" ∧ key.2.1 ≠ "*")
    (fun grant key asked => by
      rw [decide_eq_true_iff, (askedBy_of_key? asked).principal_type,
        (askedBy_of_key? asked).principal_id]
      simp only [Json.str.injEq, ne_eq])
    access_grants key

theorem asks_stripGroups : Asks (stripGroups access_grants) key ↔
    Asks access_grants key ∧ ¬ key.1 = "group" :=
  asks_filter (fun key => key.1 = "group")
    (fun grant key asked => by simp [(askedBy_of_key? asked).principal_type]) access_grants key

end Stripping

/-- The grants that the user may give. -/
structure Entitled (has_permission : String → Except PyError Bool) (user_role : String)
    (public_permission_key : String) (anyone_permission_key : Option String) (key : GrantKey) :
    Prop where
  anyone : key.1 = "anyone" → ∃ permission_key, anyone_permission_key = some permission_key ∧
    permission_key ≠ "" ∧ (user_role = "admin" ∨ has_permission permission_key = .ok true)
  everyone : user_role ≠ "admin" → key.1 = "user" ∧ key.2.1 = "*" →
    has_permission public_permission_key = .ok true
  user : user_role ≠ "admin" → key.1 = "user" ∧ key.2.1 ≠ "*" →
    has_permission "access_grants.allow_users" = .ok true
  group : user_role ≠ "admin" → key.1 = "group" →
    has_permission "access_grants.allow_groups" = .ok true

theorem anyoneAllowed_iff (has_permission : String → Except PyError Bool) (user_role : String)
    (anyone_permission_key : Option String) :
    anyoneAllowed has_permission user_role anyone_permission_key = .ok true ↔
      ∃ permission_key, anyone_permission_key = some permission_key ∧ permission_key ≠ "" ∧
        (user_role = "admin" ∨ has_permission permission_key = .ok true) := by
  unfold anyoneAllowed
  cases anyone_permission_key with
  | none => simp
  | some key =>
    by_cases empty : key = ""
    · subst empty
      exact ⟨nofun, fun ⟨_, same, full, _⟩ => absurd (Option.some.inj same).symm full⟩
    · by_cases admin : user_role = "admin" <;> simp [empty, admin, Option.filter]

theorem asks_filter_allowed {has_permission : String → Except PyError Bool} {user_role : String}
    {access_grants filtered : List Payload} {public_permission_key : String}
    {anyone_permission_key : Option String}
    (done : filter_allowed_access_grants has_permission user_role access_grants
      public_permission_key anyone_permission_key = .ok filtered) (key : GrantKey) :
    Asks filtered key ↔ Asks access_grants key ∧
      Entitled has_permission user_role public_permission_key anyone_permission_key key := by
  unfold filter_allowed_access_grants at done
  split at done
  · rename_i empty
    obtain rfl := Except.ok.inj done
    rw [List.isEmpty_iff.mp empty]
    simp [Asks]
  obtain ⟨closed, first, done⟩ := bind_eq_ok.mp done
  have anyone := asks_stripUnless first (asks_strip_anyone access_grants)
    (fun _ => has_anyone_of_asks) key
  rw [anyoneAllowed_iff] at anyone
  split at done
  · rename_i admin
    obtain rfl := Except.ok.inj done
    rw [anyone]
    refine and_congr_right (fun _ => ⟨fun allowed => ⟨allowed, ?_, ?_, ?_⟩, fun may => may.anyone⟩)
    all_goals exact fun other => absurd admin other
  · rename_i user
    obtain ⟨restricted, second, done⟩ := bind_eq_ok.mp done
    obtain ⟨grouped, third, last⟩ := bind_eq_ok.mp done
    have everyone := asks_stripUnless second (asks_stripPublic closed)
      (fun _ => has_public_of_asks) key
    have direct := asks_stripUnless third (asks_strip_user restricted)
      (fun _ => has_user_of_asks) key
    have group := asks_stripUnless last (asks_stripGroups grouped) (fun _ => has_group_of_asks) key
    rw [group, direct, everyone, anyone, and_assoc, and_assoc, and_assoc]
    refine and_congr_right (fun _ => ⟨?_, ?_⟩)
    · rintro ⟨anyone, everyone, direct, group⟩
      exact ⟨anyone, fun _ => everyone, fun _ => direct, fun _ => group⟩
    · intro may
      exact ⟨may.anyone, may.everyone user, may.user user, may.group user⟩

theorem mem_set_access_grants {uuid : Nat → String} {now : Int} {db : Database}
    {resource_type resource_id : String} {access_grants : List Payload} {row : AccessGrant} :
    row ∈ (set_access_grants uuid now db resource_type resource_id access_grants).access_grant ↔
      (row ∈ db.access_grant ∧
        ¬ (row.resource_type = resource_type ∧ row.resource_id = resource_id)) ∨
      ∃ place, ∃ found : place < (normalize_access_grants access_grants).length,
        grantRow resource_type resource_id (uuid place) now
          (normalize_access_grants access_grants)[place].1 = row := by
  rw [set_access_grants, List.mem_append, List.mem_filter, List.mem_mapIdx, decide_eq_true_iff]

def AccessGrant.key (grant : AccessGrant) : GrantKey :=
  (grant.principal_type, grant.principal_id, grant.permission)

/-- The grants of a resource. -/
def Stored (db : Database) (resource_type resource_id : String) (key : GrantKey) : Prop :=
  ∃ row ∈ db.access_grant,
    row.resource_type = resource_type ∧ row.resource_id = resource_id ∧ row.key = key

theorem stored_set_access_grants (uuid : Nat → String) (now : Int) (db : Database)
    (resource_type resource_id : String) (access_grants : List Payload) (key : GrantKey) :
    Stored (set_access_grants uuid now db resource_type resource_id access_grants) resource_type
      resource_id key ↔ Asks access_grants key := by
  rw [← mem_normalize_iff, Assoc.keys, List.mem_map]
  constructor
  · rintro ⟨row, member, type, id, rfl⟩
    rcases mem_set_access_grants.mp member with ⟨_, other⟩ | ⟨place, found, rfl⟩
    · exact absurd ⟨type, id⟩ other
    · exact ⟨_, List.getElem_mem found, rfl⟩
  · rintro ⟨entry, member, rfl⟩
    obtain ⟨place, found, rfl⟩ := List.mem_iff_getElem.mp member
    exact ⟨_, mem_set_access_grants.mpr (Or.inr ⟨place, found, rfl⟩), rfl, rfl, rfl⟩

theorem stripUnless_ok (found answer : Bool) (stripped access_grants : List Payload) :
    ∃ result, stripUnless found (.ok answer) stripped access_grants = .ok result := by
  cases found with
  | false => exact ⟨_, rfl⟩
  | true => exact ⟨_, rfl⟩

theorem filter_allowed_ok (answers : String → Bool) (user_role : String)
    (access_grants : List Payload) (public_permission_key : String)
    (anyone_permission_key : Option String) :
    ∃ filtered, filter_allowed_access_grants (fun key => .ok (answers key)) user_role
      access_grants public_permission_key anyone_permission_key = .ok filtered := by
  unfold filter_allowed_access_grants
  split
  · exact ⟨_, rfl⟩
  have ⟨answer, anyone⟩ : ∃ answer, anyoneAllowed (fun key => .ok (answers key)) user_role
      anyone_permission_key = .ok answer := by
    unfold anyoneAllowed
    split
    · exact ⟨_, rfl⟩
    · split
      · exact ⟨_, rfl⟩
      · exact ⟨_, rfl⟩
  obtain ⟨closed, first⟩ := stripUnless_ok (has_anyone_read_access_grant access_grants) answer
    (strip_anyone_access_grants access_grants) access_grants
  rw [anyone, first]
  simp only [bind, Except.bind]
  split
  · exact ⟨_, rfl⟩
  obtain ⟨restricted, second⟩ := stripUnless_ok
    (has_public_read_access_grant closed || has_public_write_access_grant closed)
    (answers public_permission_key) (stripPublic closed) closed
  obtain ⟨grouped, third⟩ := stripUnless_ok (has_user_access_grant restricted)
    (answers "access_grants.allow_users") (strip_user_access_grants restricted) restricted
  rw [second]
  simp only [third]
  exact stripUnless_ok _ _ _ _

/-- The grants that a request leaves on a resource are exactly the valid ones of its payload
that the user is entitled to give. -/
theorem stored_grants_iff (answers : String → Bool) (user_role : String)
    (access_grants : List Payload) (public_permission_key : String)
    (anyone_permission_key : Option String) :
    ∃ filtered, filter_allowed_access_grants (fun key => .ok (answers key)) user_role
        access_grants public_permission_key anyone_permission_key = .ok filtered ∧
      ∀ (uuid : Nat → String) (now : Int) (db : Database) (resource_type resource_id : String)
        (key : GrantKey),
        Stored (set_access_grants uuid now db resource_type resource_id filtered) resource_type
          resource_id key ↔
            key ∈ Assoc.keys (normalize_access_grants access_grants) ∧
              Entitled (fun key => .ok (answers key)) user_role public_permission_key
                anyone_permission_key key := by
  obtain ⟨filtered, done⟩ := filter_allowed_ok answers user_role access_grants
    public_permission_key anyone_permission_key
  refine ⟨filtered, done, ?_⟩
  intro uuid now db resource_type resource_id key
  rw [stored_set_access_grants, asks_filter_allowed done, mem_normalize_iff]

end OpenWebui.AccessGrants
