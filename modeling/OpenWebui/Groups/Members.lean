import Mathlib.Data.List.Induction
import Mathlib.Data.List.Nodup
import OpenWebui.Base.Dict

/-! The members of groups. The database takes no member twice; users are added one by one in one
transaction, which is rolled back whenever a row is refused. -/

namespace OpenWebui.Groups

structure GroupMember where
  group_id : String
  user_id : String
deriving DecidableEq

/-- The rows of `group_member`, none twice. `known` are the users that the foreign key accepts: all
of them where the database does not enforce it. -/
structure MemberTable (known : String → Bool) where
  rows : List GroupMember
  unique : rows.Nodup
  referenced : ∀ row ∈ rows, known row.user_id = true

structure Group where
  name : String
  description : String
  updated_at : Int

structure Tables (known : String → Bool) where
  group : Dict String Group
  group_member : MemberTable known

structure Session (known : String → Bool) where
  committed : Tables known
  current : Tables known

section Functions

variable {known : String → Bool}

def MemberTable.insert? (table : MemberTable known) (row : GroupMember) :
    Option (MemberTable known) :=
  if new : row ∉ table.rows ∧ known row.user_id = true then
    some
      { rows := table.rows ++ [row]
        unique := List.nodup_append.mpr ⟨table.unique, List.nodup_singleton row, by
          intro old stored last final same
          rw [List.mem_singleton] at final
          rw [same, final] at stored
          exact new.1 stored⟩
        referenced := by
          intro other member
          rcases List.mem_append.mp member with old | last
          · exact table.referenced other old
          · rw [List.mem_singleton.mp last]
            exact new.2 }
  else none

def MemberTable.delete (table : MemberTable known) (drop : GroupMember → Bool) :
    MemberTable known where
  rows := table.rows.filter (fun row => !drop row)
  unique := table.unique.filter _
  referenced row member := table.referenced row (List.mem_of_mem_filter member)

def get_group_user_ids_by_id (tables : Tables known) (id : String) : List String :=
  (tables.group_member.rows.filter (fun row => decide (row.group_id = id))).map GroupMember.user_id

def flush_member (id : String) (session : Session known) (user_id : String) : Session known :=
  match session.current.group_member.insert? ⟨id, user_id⟩ with
  | some rows => ⟨session.committed, { session.current with group_member := rows }⟩
  | none => ⟨session.committed, session.committed⟩

def add_users_to_group (now : Int) (id : String) (user_ids : Option (List String))
    (tables : Tables known) : Option Group × Tables known :=
  match tables.group.get? id with
  | none => (none, tables)
  | some group =>
    let session := (user_ids.getD []).foldl (flush_member id) ⟨tables, tables⟩
    let updated := { group with updated_at := now }
    (some updated, { session.current with group := session.current.group.set id updated })

end Functions

section Rows

variable {known : String → Bool}

theorem MemberTable.insert?_new {table : MemberTable known} {row : GroupMember}
    (new : row ∉ table.rows) (accepted : known row.user_id = true) :
    ∃ inserted, table.insert? row = some inserted ∧ inserted.rows = table.rows ++ [row] := by
  rw [insert?, dif_pos ⟨new, accepted⟩]
  exact ⟨_, rfl, rfl⟩

theorem MemberTable.insert?_refused {table : MemberTable known} {row : GroupMember}
    (refused : row ∈ table.rows ∨ known row.user_id = false) : table.insert? row = none := by
  apply dif_neg
  rintro ⟨new, accepted⟩
  rcases refused with stored | unknown
  · exact new stored
  · rw [accepted] at unknown
    cases unknown

@[simp] theorem mem_group_user_ids {tables : Tables known} {id user_id : String} :
    user_id ∈ get_group_user_ids_by_id tables id ↔ ⟨id, user_id⟩ ∈ tables.group_member.rows := by
  rw [get_group_user_ids_by_id, List.mem_map]
  constructor
  · rintro ⟨row, kept, rfl⟩
    obtain ⟨stored, same⟩ := List.mem_filter.mp kept
    rw [← of_decide_eq_true same]
    exact stored
  · intro stored
    exact ⟨⟨id, user_id⟩, List.mem_filter.mpr ⟨stored, decide_eq_true rfl⟩, rfl⟩

theorem known_of_member {tables : Tables known} {id user_id : String}
    (member : user_id ∈ get_group_user_ids_by_id tables id) : known user_id = true :=
  tables.group_member.referenced _ (mem_group_user_ids.mp member)

end Rows

/-- Different users whose rows can all be inserted. -/
structure Fresh (known : String → Bool) (members users : List String) : Prop where
  distinct : users.Nodup
  new : ∀ user ∈ users, user ∉ members
  accepted : ∀ user ∈ users, known user = true

structure Stretch where
  added : List String
  refused : String

def Stretch.listed (stretch : Stretch) : List String := stretch.added ++ [stretch.refused]

/-- The last user of a stretch is a member, stands in it before, or is not known. -/
structure Stretch.Stops (known : String → Bool) (members : List String) (stretch : Stretch) : Prop
    where
  fresh : Fresh known members stretch.added
  stops : stretch.refused ∈ members ∨ stretch.refused ∈ stretch.added ∨
    known stretch.refused = false

/-- A list of users falls into stretches and the users after them. -/
structure FallsInto (known : String → Bool) (members users : List String)
    (stretches : List Stretch) (last : List String) : Prop where
  whole : users = stretches.flatMap Stretch.listed ++ last
  stops : ∀ stretch ∈ stretches, stretch.Stops known members
  fresh : Fresh known members last

section Stretches

variable {known : String → Bool} {members : List String}

theorem Fresh.nil : Fresh known members [] where
  distinct := List.nodup_nil
  new _ member := by cases member
  accepted _ member := by cases member

theorem Fresh.concat {users : List String} {user : String} (fresh : Fresh known members users)
    (unlisted : user ∉ users) (new : user ∉ members) (accepted : known user = true) :
    Fresh known members (users ++ [user]) where
  distinct := fresh.distinct.append (List.nodup_singleton user) (by simpa using unlisted)
  new other member := by
    rcases List.mem_append.mp member with before | last
    · exact fresh.new other before
    · rw [List.mem_singleton.mp last]
      exact new
  accepted other member := by
    rcases List.mem_append.mp member with before | last
    · exact fresh.accepted other before
    · rw [List.mem_singleton.mp last]
      exact accepted

theorem Fresh.before {users rest : List String} (fresh : Fresh known members (users ++ rest)) :
    Fresh known members users where
  distinct := (List.nodup_append.mp fresh.distinct).1
  new user member := fresh.new user (List.mem_append_left _ member)
  accepted user member := fresh.accepted user (List.mem_append_left _ member)

theorem exists_fallsInto (known : String → Bool) (members users : List String) :
    ∃ stretches last, FallsInto known members users stretches last := by
  induction users using List.reverseRecOn with
  | nil => exact ⟨[], [], rfl, by simp, .nil⟩
  | append_singleton before user ih =>
    obtain ⟨stretches, last, whole, stops, fresh⟩ := ih
    by_cases stop : user ∈ members ∨ user ∈ last ∨ known user = false
    · refine ⟨stretches ++ [⟨last, user⟩], [], ?_, ?_, .nil⟩
      · simp [whole, Stretch.listed]
      · intro stretch member
        rcases List.mem_append.mp member with earlier | final
        · exact stops stretch earlier
        · rw [List.mem_singleton.mp final]
          exact ⟨fresh, stop⟩
    · obtain ⟨new, unlisted, accepted⟩ : user ∉ members ∧ user ∉ last ∧ known user = true := by
        simpa using stop
      refine ⟨stretches, last ++ [user], ?_, stops, fresh.concat unlisted new accepted⟩
      rw [whole, List.append_assoc]

end Stretches

section Run

variable {known : String → Bool} {tables : Tables known} {id : String}

/-- The session when the users have been flushed since the last commit or rollback. -/
structure Flushed (tables : Tables known) (id : String) (users : List String)
    (session : Session known) : Prop where
  committed : session.committed = tables
  group : session.current.group = tables.group
  rows : session.current.group_member.rows =
    tables.group_member.rows ++ users.map (fun user => ⟨id, user⟩)

theorem Flushed.none : Flushed tables id [] ⟨tables, tables⟩ where
  committed := rfl
  group := rfl
  rows := (List.append_nil _).symm

theorem Flushed.stored {users : List String} {session : Session known} {user : String}
    (flushed : Flushed tables id users session) :
    ⟨id, user⟩ ∈ session.current.group_member.rows ↔
      user ∈ get_group_user_ids_by_id tables id ∨ user ∈ users := by
  rw [flushed.rows, List.mem_append, mem_group_user_ids]
  simp

theorem Flushed.add {users : List String} {session : Session known} {user : String}
    (flushed : Flushed tables id users session) (unlisted : user ∉ users)
    (new : user ∉ get_group_user_ids_by_id tables id) (accepted : known user = true) :
    Flushed tables id (users ++ [user]) (flush_member id session user) := by
  have absent : (⟨id, user⟩ : GroupMember) ∉ session.current.group_member.rows := by
    rw [flushed.stored, not_or]
    exact ⟨new, unlisted⟩
  obtain ⟨inserted, taken, rows⟩ := MemberTable.insert?_new absent accepted
  rw [flush_member, taken]
  refine ⟨flushed.committed, flushed.group, ?_⟩
  rw [rows, flushed.rows]
  simp

theorem Flushed.refuse {users : List String} {session : Session known} {user : String}
    (flushed : Flushed tables id users session)
    (refused : user ∈ get_group_user_ids_by_id tables id ∨ user ∈ users ∨ known user = false) :
    flush_member id session user = ⟨tables, tables⟩ := by
  have none := @MemberTable.insert?_refused _ session.current.group_member ⟨id, user⟩ (by
    rw [flushed.stored, or_assoc]
    exact refused)
  rw [flush_member, none, flushed.committed]

theorem flushed_fresh {users : List String}
    (fresh : Fresh known (get_group_user_ids_by_id tables id) users) :
    Flushed tables id users (users.foldl (flush_member id) ⟨tables, tables⟩) := by
  induction users using List.reverseRecOn with
  | nil => exact .none
  | append_singleton before user ih =>
    rw [List.foldl_concat]
    have last : user ∈ before ++ [user] := List.mem_append_right _ (List.mem_singleton_self user)
    refine (ih fresh.before).add ?_ (fresh.new user last) (fresh.accepted user last)
    intro listed
    exact (List.nodup_append.mp fresh.distinct).2.2 user listed user (List.mem_singleton_self user)
      rfl

theorem stretch_undone {stretch : Stretch}
    (stops : stretch.Stops known (get_group_user_ids_by_id tables id)) :
    stretch.listed.foldl (flush_member id) ⟨tables, tables⟩ = ⟨tables, tables⟩ := by
  rw [Stretch.listed, List.foldl_concat]
  exact (flushed_fresh stops.fresh).refuse stops.stops

theorem flushed_last {users last : List String} {stretches : List Stretch}
    (falls : FallsInto known (get_group_user_ids_by_id tables id) users stretches last) :
    Flushed tables id last (users.foldl (flush_member id) ⟨tables, tables⟩) := by
  have undone : ∀ stretches : List Stretch,
      (∀ stretch ∈ stretches, stretch.Stops known (get_group_user_ids_by_id tables id)) →
        (stretches.flatMap Stretch.listed).foldl (flush_member id) ⟨tables, tables⟩ =
          ⟨tables, tables⟩ := by
    intro stretches stops
    induction stretches with
    | nil => rfl
    | cons stretch rest ih =>
      rw [List.flatMap_cons, List.foldl_append, stretch_undone (stops stretch List.mem_cons_self)]
      exact ih (fun other member => stops other (List.mem_cons_of_mem _ member))
  rw [falls.whole, List.foldl_append, undone stretches falls.stops]
  exact flushed_fresh falls.fresh

theorem mem_added {now : Int} {user_ids : Option (List String)} {group : Group}
    {last : List String} {stretches : List Stretch} (found : tables.group.get? id = some group)
    (falls : FallsInto known (get_group_user_ids_by_id tables id) (user_ids.getD []) stretches last)
    {user : String} :
    user ∈ get_group_user_ids_by_id (add_users_to_group now id user_ids tables).2 id ↔
      user ∈ get_group_user_ids_by_id tables id ∨ user ∈ last := by
  rw [mem_group_user_ids, ← (flushed_last falls).stored, add_users_to_group, found]

/-- Additions are set unions, unless a new user is listed only before the last refused row. -/
theorem added_union_iff {group : Group} (found : tables.group.get? id = some group) (now : Int)
    (user_ids : Option (List String)) :
    (∀ user, user ∈ get_group_user_ids_by_id (add_users_to_group now id user_ids tables).2 id ↔
      user ∈ get_group_user_ids_by_id tables id ∨ user ∈ user_ids.getD []) ↔
      ∃ stretches last,
        FallsInto known (get_group_user_ids_by_id tables id) (user_ids.getD []) stretches last ∧
          ∀ user ∈ user_ids.getD [], user ∈ get_group_user_ids_by_id tables id ∨ user ∈ last := by
  constructor
  · intro union
    obtain ⟨stretches, last, falls⟩ :=
      exists_fallsInto known (get_group_user_ids_by_id tables id) (user_ids.getD [])
    refine ⟨stretches, last, falls, ?_⟩
    intro user listed
    exact (mem_added found falls).mp ((union user).mpr (.inr listed))
  · rintro ⟨stretches, last, falls, kept⟩ user
    rw [mem_added found falls]
    constructor
    · rintro (old | added)
      · exact .inl old
      · refine .inr ?_
        rw [falls.whole]
        exact List.mem_append_right _ added
    · rintro (old | listed)
      · exact .inl old
      · exact kept user listed

end Run

def oneMember : Tables (fun _ => true) where
  group := .ofEntries [("team", ⟨"Team", "", 0⟩)]
  group_member := ⟨[⟨"team", "old"⟩], List.nodup_singleton _, fun _ _ => rfl⟩

theorem two_users_added : "next" ∉ get_group_user_ids_by_id oneMember "team" ∧ ∀ user,
    user ∈ get_group_user_ids_by_id (add_users_to_group 1 "team" (some ["new", "next"]) oneMember).2
      "team" ↔ user ∈ get_group_user_ids_by_id oneMember "team" ∨ user ∈ ["new", "next"] := by
  refine ⟨by decide, (added_union_iff rfl 1 (some ["new", "next"])).mpr
    ⟨[], ["new", "next"], ⟨rfl, ?_, ?_⟩, ?_⟩⟩
  · intro stretch member
    cases member
  · exact ⟨by decide, by decide, fun _ _ => rfl⟩
  · exact fun user listed => .inr listed

/-- A member behind a new user undoes the addition. -/
theorem member_undoes : ¬ ∀ (tables : Tables (fun _ => true)) (id : String) (user_ids : List String),
    (tables.group.get? id).isSome = true → ∀ user,
      user ∈ get_group_user_ids_by_id (add_users_to_group 1 id (some user_ids) tables).2 id ↔
        user ∈ get_group_user_ids_by_id tables id ∨ user ∈ user_ids := by
  intro union
  have added := (union oneMember "team" ["new", "old"] (by decide) "new").mpr (by decide)
  revert added
  decide

end OpenWebui.Groups
