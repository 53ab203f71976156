import OpenWebui.Signup.Registration

/-! Which runs of registrations elect one admin: those in which the first user is counted before
another one is inserted. -/

namespace OpenWebui.Signup

def Phase.entered : Phase → Bool
  | .inserted => true
  | .promoting => true
  | .closing => true
  | .registered => true
  | _ => false

namespace System

section Elect

variable (settings : Settings) (requests : Nat → Request)

/-- Every registration has ended, or never began. -/
def Complete (system : System) : Prop :=
  ∀ id, system.phase id = .waiting ∨ system.phase id = .registered ∨ system.phase id = .refused

/-- Exactly one user is an admin, and every other has the default role. -/
def ElectsOne (system : System) : Prop :=
  ∃ user ∈ system.users, user.role = .admin ∧ ∀ other ∈ system.users, other.id ≠ user.id →
    other.role = settings.default_user_role ∧ other.role ≠ .admin

/-- The step inserts a second user while the first has yet to be counted. -/
def Overtakes (system : System) (id : Nat) : Prop :=
  (∃ role, system.phase id = .ready role) ∧
    system.get_user_by_email (requests id).email = none ∧
      ∃ user, system.users = [user] ∧ system.phase user.id = .inserted

/-- No registration inserts its user between the insert of the first user and its count. -/
def Unovertaken (begin : System) (events : List Nat) : Prop :=
  Runs.Always (fun earlier id => ∀ old, begin.run settings requests earlier = some old →
    ¬ old.Overtakes requests id) events

/-- The steps of a registration, one by one. -/
inductive Moves (old : System) (id : Nat) : System → Prop where
  | quiet (phase : Phase) (before : (old.phase id).entered = false)
      (after : phase.entered = false)
      (role : ∀ role, phase = .ready role → role = settings.default_user_role) :
      Moves old id (old.setPhase id phase)
  | insert (role : Role) (ready : old.phase id = .ready role)
      (free : old.get_user_by_email (requests id).email = none) :
      Moves old id ({ old with
        users := old.users ++ [User.mk id (requests id).email role] }.setPhase id .inserted)
  | count (inserted : old.phase id = .inserted) :
      Moves old id
        (old.setPhase id (if old.get_num_users = 1 then .promoting else .registered))
  | promote (promoting : old.phase id = .promoting) :
      Moves old id ((old.update_user_role_by_id id .admin).setPhase id
        (afterPromotion (requests id).path))
  | close (closing : old.phase id = .closing) :
      Moves old id ({ old with enable_signup := false }.setPhase id .registered)

theorem newRole_eq (system : System) (path : Path) :
    newRole settings system path = settings.default_user_role := by
  unfold newRole get_user_role
  split
  · exact ite_self _
  · rfl

theorem moves_of_step {old new : System} {id : Nat}
    (stepped : old.step settings requests id = some new) : Moves settings requests old id new := by
  have looks : ∀ {system : System}, (old.phase id).entered = false →
      some (lookup requests old id) = some system → Moves settings requests old id system := by
    intro system before same
    obtain rfl := Option.some.inj same
    unfold lookup
    split
    · exact .quiet .refused before rfl (by simp)
    · exact .quiet .unknown before rfl (by simp)
  unfold step at stepped
  split at stepped
  · rename_i waiting
    have before : (old.phase id).entered = false := by rw [waiting]; rfl
    split at stepped
    · obtain rfl := Option.some.inj stepped
      exact .quiet _ before rfl (by simp)
    · exact looks before stepped
  · rename_i has_users gated
    obtain rfl := Option.some.inj stepped
    refine .quiet _ (by rw [gated]; rfl) ?_ ?_ <;> split <;> simp [Phase.entered]
  · rename_i admitted
    exact looks (by rw [admitted]; rfl) stepped
  · rename_i unknown
    obtain rfl := Option.some.inj stepped
    refine .quiet _ (by rw [unknown]; rfl) rfl ?_
    intro role same
    exact (Phase.ready.inj same).symm.trans (newRole_eq settings old _)
  · rename_i role ready
    obtain rfl := Option.some.inj stepped
    unfold insert_new_auth
    split
    · exact .quiet .refused (by rw [ready]; rfl) rfl (by simp)
    · rename_i free
      exact .insert role ready free
  · rename_i inserted
    obtain rfl := Option.some.inj stepped
    exact .count inserted
  · rename_i promoting
    obtain rfl := Option.some.inj stepped
    exact .promote promoting
  · rename_i closing
    obtain rfl := Option.some.inj stepped
    exact .close closing
  · cases stepped
  · cases stepped

@[simp] theorem phase_setPhase (system : System) (id other : Nat) (phase : Phase) :
    (system.setPhase id phase).phase other = if other = id then phase else system.phase other :=
  Function.update_apply ..

@[simp] theorem users_setPhase (system : System) (id : Nat) (phase : Phase) :
    (system.setPhase id phase).users = system.users := rfl

/-- The user has the default role, and is counted by then or not, but not promoted. -/
def Plain (system : System) (user : User) : Prop :=
  user.role = settings.default_user_role ∧
    (system.phase user.id = .inserted ∨ system.phase user.id = .registered)

/-- The user was counted alone. -/
def Chosen (system : System) (user : User) : Prop :=
  system.phase user.id = .promoting ∨
    user.role = .admin ∧ (system.phase user.id = .closing ∨ system.phase user.id = .registered)

/-- Nobody was counted yet, and at most one user is there. -/
def Open (system : System) : Prop :=
  system.users = [] ∨ ∃ user, system.users = [user] ∧ system.phase user.id = .inserted

/-- The first user was counted alone, and every other has been inserted since. -/
def Won (system : System) : Prop :=
  ∃ first rest, system.users = first :: rest ∧ system.Chosen first ∧
    ∀ user ∈ rest, system.Plain settings user

/-- Several users are there, and nobody was counted alone. -/
def Lost (system : System) : Prop :=
  2 ≤ system.users.length ∧ ∀ user ∈ system.users, system.Plain settings user

/-- What holds in every state of every run. -/
structure Inv (system : System) : Prop where
  distinct : (system.users.map User.id).Nodup
  entered : ∀ id, (system.phase id).entered = true ↔ id ∈ system.users.map User.id
  ready : ∀ id role, system.phase id = .ready role → role = settings.default_user_role
  inserted : ∀ user ∈ system.users, system.phase user.id = .inserted →
    user.role = settings.default_user_role

section Keep

variable {settings requests} {old new : System} {id : Nat}

theorem ids_update (system : System) (id : Nat) (role : Role) :
    (system.update_user_role_by_id id role).users.map User.id = system.users.map User.id := by
  rw [update_user_role_by_id, List.map_map]
  refine List.map_congr_left fun user _ => ?_
  by_cases same : user.id = id <;> simp [same]

theorem Inv.swap (inv : Inv settings old) {users : List User} {enable_signup : Bool} {phase : Phase}
    (ids : users.map User.id = old.users.map User.id)
    (others : ∀ user ∈ users, user.id ≠ id → user ∈ old.users)
    (stays : phase.entered = (old.phase id).entered)
    (ready : ∀ role, phase = .ready role → role = settings.default_user_role)
    (counted : phase ≠ .inserted) :
    Inv settings (setPhase ⟨users, enable_signup, old.phase⟩ id phase) where
  distinct := by
    rw [users_setPhase, ids]
    exact inv.distinct
  entered := by
    intro other
    rw [phase_setPhase, users_setPhase, ids, ← inv.entered other]
    split
    · rename_i same
      rw [same, stays]
    · rfl
  ready := by
    intro other role same
    rw [phase_setPhase] at same
    split at same
    · exact ready role same
    · exact inv.ready other role same
  inserted := by
    intro user member same
    rw [phase_setPhase] at same
    split at same
    · exact absurd same counted
    · rename_i apart
      exact inv.inserted user (others user member apart) same

theorem Inv.step (inv : Inv settings old) (moves : Moves settings requests old id new) :
    Inv settings new := by
  cases moves with
  | quiet phase before after role =>
    refine inv.swap rfl (fun _ member _ => member) (after.trans before.symm) role ?_
    rintro rfl
    cases after
  | insert role is_ready free =>
    have fresh : id ∉ old.users.map User.id := by
      rw [← inv.entered id, is_ready]
      simp [Phase.entered]
    refine ⟨?_, ?_, ?_, ?_⟩
    case refine_1 =>
      rw [users_setPhase, List.map_append]
      refine List.nodup_append.mpr ⟨inv.distinct, by simp, ?_⟩
      rintro first member second last rfl
      obtain rfl : first = id := by simpa using last
      exact fresh member
    case refine_2 =>
      intro other
      rw [phase_setPhase, users_setPhase, List.map_append, List.mem_append, ← inv.entered other]
      split
      · rename_i same
        simp [same, Phase.entered]
      · rename_i apart
        simp [apart]
    case refine_3 =>
      intro other role' same
      rw [phase_setPhase] at same
      split at same
      · cases same
      · exact inv.ready other role' same
    case refine_4 =>
      intro user member same
      rcases List.mem_append.mp member with before | last
      · rw [phase_setPhase] at same
        split at same
        · rename_i clash
          exact absurd (clash ▸ List.mem_map_of_mem before) fresh
        · exact inv.inserted user before same
      · obtain rfl := List.mem_singleton.mp last
        exact inv.ready id role is_ready
  | count is_inserted =>
    refine inv.swap rfl (fun _ member _ => member) ?_ ?_ ?_ <;> split <;>
      simp [is_inserted, Phase.entered]
  | promote promoting =>
    refine inv.swap (ids_update old id .admin) ?_ ?_ ?_ ?_
    · intro user member apart
      obtain ⟨before, there, rfl⟩ := List.mem_map.mp member
      by_cases same : before.id = id
      · simp [same] at apart
      · rw [if_neg same]
        exact there
    all_goals unfold afterPromotion; split <;> simp [promoting, Phase.entered]
  | close closing =>
    exact inv.swap rfl (fun _ member _ => member) (by rw [closing]; rfl) (by simp) (by simp)

theorem Inv.apart (inv : Inv settings old) (before : (old.phase id).entered = false) {user : User}
    (member : user ∈ old.users) : user.id ≠ id := by
  rintro rfl
  have there := (inv.entered user.id).mpr (List.mem_map_of_mem member)
  rw [before] at there
  cases there

theorem Inv.user (inv : Inv settings old) (after : (old.phase id).entered = true) :
    ∃ user ∈ old.users, user.id = id := by
  obtain ⟨user, member, same⟩ := List.mem_map.mp ((inv.entered id).mp after)
  exact ⟨user, member, same⟩

theorem plain_other {system : System} {user : User} (plain : Plain settings old user)
    (same : system.phase user.id = old.phase user.id) : Plain settings system user := by
  rw [Plain, same]
  exact plain

theorem chosen_other {system : System} {user : User} (chosen : Chosen old user)
    (same : system.phase user.id = old.phase user.id) : Chosen system user := by
  rw [Chosen, same]
  exact chosen

theorem Lost.step (lost : Lost settings old) (inv : Inv settings old)
    (moves : Moves settings requests old id new) : Lost settings new := by
  obtain ⟨several, plain⟩ := lost
  cases moves with
  | quiet phase before after role =>
    refine ⟨several, fun user member => plain_other (plain user member) ?_⟩
    rw [phase_setPhase, if_neg (inv.apart before member)]
  | insert role is_ready free =>
    have before : (old.phase id).entered = false := by rw [is_ready]; rfl
    refine ⟨?_, ?_⟩
    · rw [users_setPhase, List.length_append]
      exact Nat.le_trans several (Nat.le_add_right _ _)
    · intro user member
      rcases List.mem_append.mp member with there | last
      · refine plain_other (plain user there) ?_
        rw [phase_setPhase, if_neg (inv.apart before there)]
      · obtain rfl := List.mem_singleton.mp last
        exact ⟨inv.ready id role is_ready, .inl (by rw [phase_setPhase, if_pos rfl])⟩
  | count is_inserted =>
    refine ⟨several, fun user member => ?_⟩
    by_cases same : user.id = id
    · refine ⟨(plain user member).1, .inr ?_⟩
      have many : old.get_num_users ≠ 1 := by
        rw [get_num_users]
        omega
      rw [phase_setPhase, if_pos same, if_neg many]
    · exact plain_other (plain user member) (by rw [phase_setPhase, if_neg same])
  | promote promoting =>
    obtain ⟨user, member, rfl⟩ := @Inv.user settings old id inv (by rw [promoting]; rfl)
    rcases (plain user member).2 with clash | clash <;> cases promoting.symm.trans clash
  | close closing =>
    obtain ⟨user, member, rfl⟩ := @Inv.user settings old id inv (by rw [closing]; rfl)
    rcases (plain user member).2 with clash | clash <;> cases closing.symm.trans clash

theorem afterPromotion_cases (path : Path) :
    afterPromotion path = .closing ∨ afterPromotion path = .registered := by
  cases path <;> simp [afterPromotion]

theorem Inv.first_apart {system : System} {first : User} {rest : List User} (inv : Inv settings system)
    (users : system.users = first :: rest) : ∀ user ∈ rest, user.id ≠ first.id := by
  have distinct := inv.distinct
  rw [users, List.map_cons, List.nodup_cons] at distinct
  intro user member same
  exact distinct.1 (same ▸ List.mem_map_of_mem member)

theorem Won.step (won : Won settings old) (inv : Inv settings old)
    (moves : Moves settings requests old id new) : Won settings new := by
  obtain ⟨first, rest, users, chosen, plain⟩ := won
  have first_there : first ∈ old.users := by simp [users]
  have there : ∀ user ∈ rest, user ∈ old.users := fun user member => by simp [users, member]
  have apart : ∀ user ∈ rest, user.id ≠ first.id := inv.first_apart users
  cases moves with
  | quiet phase before after role =>
    refine ⟨first, rest, users, chosen_other chosen ?_, fun user member => ?_⟩
    · rw [phase_setPhase, if_neg (inv.apart before first_there)]
    · refine plain_other (plain user member) ?_
      rw [phase_setPhase, if_neg (inv.apart before (there user member))]
  | insert role is_ready free =>
    have before : (old.phase id).entered = false := by rw [is_ready]; rfl
    refine ⟨first, rest ++ [User.mk id (requests id).email role], ?_, chosen_other chosen ?_, ?_⟩
    · rw [users_setPhase, users, List.cons_append]
    · rw [phase_setPhase, if_neg (inv.apart before first_there)]
    · intro user member
      rcases List.mem_append.mp member with earlier | last
      · refine plain_other (plain user earlier) ?_
        rw [phase_setPhase, if_neg (inv.apart before (there user earlier))]
      · obtain rfl := List.mem_singleton.mp last
        exact ⟨inv.ready id role is_ready, .inl (by rw [phase_setPhase, if_pos rfl])⟩
  | count is_inserted =>
    have other : first.id ≠ id := by
      rintro rfl
      rcases chosen with clash | ⟨_, clash | clash⟩ <;> cases is_inserted.symm.trans clash
    obtain ⟨counted, member, rfl⟩ := @Inv.user settings old id inv (by rw [is_inserted]; rfl)
    have many : old.get_num_users ≠ 1 := by
      rw [users, List.mem_cons] at member
      rcases member with rfl | later
      · exact absurd rfl other
      · rw [get_num_users, users, List.length_cons]
        have positive := List.length_pos_of_mem later
        omega
    refine ⟨first, rest, users, chosen_other chosen ?_, fun user later => ?_⟩
    · rw [phase_setPhase, if_neg other]
    · by_cases same : user.id = counted.id
      · exact ⟨(plain user later).1, .inr (by rw [phase_setPhase, if_pos same, if_neg many])⟩
      · exact plain_other (plain user later) (by rw [phase_setPhase, if_neg same])
  | promote promoting =>
    have same : first.id = id := by
      obtain ⟨user, member, rfl⟩ := @Inv.user settings old id inv (by rw [promoting]; rfl)
      rw [users, List.mem_cons] at member
      rcases member with rfl | later
      · rfl
      · rcases (plain user later).2 with clash | clash <;> cases promoting.symm.trans clash
    refine ⟨{ first with role := .admin }, rest, ?_, ?_, ?_⟩
    · have unchanged : rest.map (fun user =>
          if user.id = id then { user with role := .admin } else user) = rest := by
        refine (List.map_congr_left fun user member => ?_).trans (List.map_id' rest)
        exact if_neg (same ▸ apart user member)
      rw [users_setPhase, update_user_role_by_id, users, List.map_cons, if_pos same, unchanged]
    · refine .inr ⟨rfl, ?_⟩
      rw [phase_setPhase, if_pos same]
      exact afterPromotion_cases (requests id).path
    · intro user member
      refine plain_other (plain user member) ?_
      rw [phase_setPhase, if_neg (same ▸ apart user member)]
      rfl
  | close closing =>
    have same : first.id = id := by
      obtain ⟨user, member, rfl⟩ := @Inv.user settings old id inv (by rw [closing]; rfl)
      rw [users, List.mem_cons] at member
      rcases member with rfl | later
      · rfl
      · rcases (plain user later).2 with clash | clash <;> cases closing.symm.trans clash
    refine ⟨first, rest, users, .inr ⟨?_, .inr (by rw [phase_setPhase, if_pos same])⟩, ?_⟩
    · rcases chosen with clash | ⟨admin, _⟩
      · rw [same, closing] at clash
        cases clash
      · exact admin
    · intro user member
      refine plain_other (plain user member) ?_
      rw [phase_setPhase, if_neg (same ▸ apart user member)]

theorem Open.step (opens : Open old) (inv : Inv settings old)
    (unovertaken : ¬ old.Overtakes requests id) (moves : Moves settings requests old id new) :
    Open new ∨ Won settings new := by
  cases moves with
  | quiet phase before after role =>
    rcases opens with none_yet | ⟨user, users, inserted⟩
    · exact .inl (.inl none_yet)
    · refine .inl (.inr ⟨user, users, ?_⟩)
      rw [phase_setPhase, if_neg (inv.apart before (by simp [users])), inserted]
  | insert role is_ready free =>
    rcases opens with none_yet | ⟨user, users, inserted⟩
    · refine .inl (.inr ⟨User.mk id (requests id).email role, ?_, ?_⟩)
      · rw [users_setPhase, none_yet, List.nil_append]
      · rw [phase_setPhase, if_pos rfl]
    · exact absurd ⟨⟨role, is_ready⟩, free, user, users, inserted⟩ unovertaken
  | count is_inserted =>
    obtain ⟨counted, member, rfl⟩ := @Inv.user settings old id inv (by rw [is_inserted]; rfl)
    rcases opens with none_yet | ⟨user, users, inserted⟩
    · simp [none_yet] at member
    · obtain rfl : counted = user := by simpa [users] using member
      refine .inr ⟨counted, [], users, .inl ?_, by simp⟩
      rw [phase_setPhase, if_pos rfl, get_num_users, users]
      rfl
  | promote promoting =>
    obtain ⟨promoted, member, rfl⟩ := @Inv.user settings old id inv (by rw [promoting]; rfl)
    rcases opens with none_yet | ⟨user, users, inserted⟩
    · simp [none_yet] at member
    · obtain rfl : promoted = user := by simpa [users] using member
      cases promoting.symm.trans inserted
  | close closing =>
    obtain ⟨promoted, member, rfl⟩ := @Inv.user settings old id inv (by rw [closing]; rfl)
    rcases opens with none_yet | ⟨user, users, inserted⟩
    · simp [none_yet] at member
    · obtain rfl : promoted = user := by simpa [users] using member
      cases closing.symm.trans inserted

theorem lost_of_overtakes (inv : Inv settings old) (overtakes : old.Overtakes requests id)
    (stepped : old.step settings requests id = some new) : Lost settings new := by
  obtain ⟨⟨role, is_ready⟩, free, user, users, inserted⟩ := overtakes
  have before : (old.phase id).entered = false := by rw [is_ready]; rfl
  rw [step, is_ready] at stepped
  simp only [insert_new_auth, free, Option.some.injEq] at stepped
  obtain rfl := stepped
  have there : user ∈ old.users := by simp [users]
  refine ⟨by simp [users], ?_⟩
  intro other member
  rw [users_setPhase, users, List.mem_append, List.mem_singleton, List.mem_singleton] at member
  rcases member with rfl | rfl
  · refine ⟨inv.inserted _ there inserted, .inl ?_⟩
    rw [phase_setPhase, if_neg (inv.apart before there), inserted]
  · exact ⟨inv.ready id role is_ready, .inl (by rw [phase_setPhase, if_pos rfl])⟩

end Keep

section Runs

variable {settings requests} {enable_signup : Bool} {events : List Nat} {final : System}

theorem inv_empty (enable_signup : Bool) : Inv settings (empty enable_signup) where
  distinct := List.nodup_nil
  entered := by simp [empty, Phase.entered]
  ready := by simp [empty]
  inserted := by simp [empty]

theorem inv_run (ran : (empty enable_signup).run settings requests events = some final) :
    Inv settings final :=
  Runs.foldlM_invariant (Inv settings)
    (fun _ _ _ inv _ stepped => inv.step (moves_of_step settings requests stepped))
    (inv_empty enable_signup) (fun _ _ _ _ _ _ => trivial) ran

theorem open_or_won (ran : (empty enable_signup).run settings requests events = some final)
    (unovertaken : Unovertaken settings requests (empty enable_signup) events) :
    Open final ∨ Won settings final := by
  have both : Inv settings final ∧ (Open final ∨ Won settings final) := by
    refine Runs.foldlM_invariant (fun system => Inv settings system ∧
      (Open system ∨ Won settings system)) ?_ ⟨inv_empty enable_signup, .inl (.inl rfl)⟩
        unovertaken ran
    rintro old id new ⟨inv, stands⟩ good stepped
    have moves := moves_of_step settings requests stepped
    refine ⟨inv.step moves, ?_⟩
    rcases stands with opens | won
    · exact opens.step inv good moves
    · exact .inr (won.step inv moves)
  exact both.2

theorem lost_of_overtaken (ran : (empty enable_signup).run settings requests events = some final)
    (overtaken : ¬ Unovertaken settings requests (empty enable_signup) events) :
    Lost settings final := by
  simp only [Unovertaken, Runs.Always, not_forall, not_not] at overtaken
  obtain ⟨earlier, id, later, split, old, reached, overtakes⟩ := overtaken
  rw [split, run, List.foldlM_append, Option.bind_eq_bind, Option.bind_eq_some_iff] at ran
  obtain ⟨same, again, ran⟩ := ran
  obtain rfl := Option.some.inj (reached.symm.trans again)
  rw [List.foldlM_cons, Option.bind_eq_bind, Option.bind_eq_some_iff] at ran
  obtain ⟨next, stepped, rest⟩ := ran
  have inv := inv_run reached
  have starts : Inv settings next ∧ Lost settings next :=
    ⟨inv.step (moves_of_step settings requests stepped), lost_of_overtakes inv overtakes stepped⟩
  have both : Inv settings final ∧ Lost settings final := by
    refine Runs.foldlM_invariant (fun system => Inv settings system ∧ Lost settings system) ?_ starts
        (fun _ _ _ _ _ _ => trivial) rest
    rintro old id new ⟨inv, lost⟩ _ stepped
    have moves := moves_of_step settings requests stepped
    exact ⟨inv.step moves, lost.step inv moves⟩
  exact both.2

/-- Exactly one admin is elected where the first user is counted before the second is inserted,
and the default role is not that of an admin. -/
theorem first_admin_iff (ran : (empty enable_signup).run settings requests events = some final)
    (complete : final.Complete) (succeeded : final.users ≠ []) :
    final.ElectsOne settings ↔
      Unovertaken settings requests (empty enable_signup) events ∧
        (settings.default_user_role ≠ .admin ∨ final.users.length = 1) := by
  have inv := inv_run ran
  by_cases unovertaken : Unovertaken settings requests (empty enable_signup) events
  · obtain ⟨first, rest, users, admin, plain⟩ : ∃ first rest, final.users = first :: rest ∧
        first.role = .admin ∧ ∀ user ∈ rest, final.Plain settings user := by
      rcases open_or_won ran unovertaken with (none_yet | ⟨user, users, inserted⟩) |
        ⟨first, rest, users, chosen, plain⟩
      · exact absurd none_yet succeeded
      · rcases complete user.id with clash | clash | clash <;> cases inserted.symm.trans clash
      · rcases chosen with promoting | ⟨admin, _⟩
        · rcases complete first.id with clash | clash | clash <;> cases promoting.symm.trans clash
        · exact ⟨first, rest, users, admin, plain⟩
    have apart : ∀ user ∈ rest, user.id ≠ first.id := inv.first_apart users
    constructor
    · rintro ⟨elected, member, is_admin, others⟩
      refine ⟨unovertaken, ?_⟩
      by_contra both
      rw [not_or, not_not] at both
      obtain ⟨default_admin, several⟩ := both
      cases rest with
      | nil => exact several (by rw [users]; rfl)
      | cons second later =>
        have second_role : second.role = .admin :=
          ((plain second List.mem_cons_self).1).trans default_admin
        by_cases same : elected.id = first.id
        · refine (others second (by simp [users]) ?_).2 second_role
          rw [same]
          exact apart second List.mem_cons_self
        · exact (others first (by simp [users]) (Ne.symm same)).2 admin
    · rintro ⟨_, default_role⟩
      refine ⟨first, by simp [users], admin, ?_⟩
      intro other member differs
      rw [users, List.mem_cons] at member
      rcases member with rfl | later
      · exact absurd rfl differs
      · have role := (plain other later).1
        refine ⟨role, fun is_admin => ?_⟩
        rcases default_role with another | alone
        · exact another (role.symm.trans is_admin)
        · rw [users, List.length_cons] at alone
          have positive := List.length_pos_of_mem later
          omega
  · refine ⟨?_, fun both => absurd both.1 unovertaken⟩
    rintro ⟨elected, member, is_admin, others⟩
    obtain ⟨several, plain⟩ := lost_of_overtaken ran unovertaken
    have default_admin : settings.default_user_role = .admin :=
      (plain elected member).1.symm.trans is_admin
    obtain ⟨other, there, differs⟩ : ∃ other ∈ final.users, other.id ≠ elected.id := by
      obtain ⟨first, second, later, users⟩ : ∃ first second later,
          final.users = first :: second :: later := by
        cases users : final.users with
        | nil => simp [users] at several
        | cons first rest =>
          cases rest with
          | nil => simp [users] at several
          | cons second later => exact ⟨first, second, later, rfl⟩
      by_cases same : second.id = elected.id
      · refine ⟨first, by simp [users], fun also => ?_⟩
        have distinct := inv.distinct
        rw [users, List.map_cons, List.nodup_cons] at distinct
        exact distinct.1 (by simp [also, same])
      · exact ⟨second, by simp [users], same⟩
    exact absurd ((plain other there).1.trans default_admin) (others other there differs).2

/-- However registrations interleave, all but the first user are left with the default role. -/
theorem later_users_default (ran : (empty enable_signup).run settings requests events = some final) :
    ∀ user ∈ final.users.tail, user.role = settings.default_user_role := by
  intro user later
  by_cases unovertaken : Unovertaken settings requests (empty enable_signup) events
  · rcases open_or_won ran unovertaken with
      (none_yet | ⟨only, users, _⟩) | ⟨first, rest, users, _, plain⟩
    · simp [none_yet] at later
    · simp [users] at later
    · rw [users] at later
      exact (plain user later).1
  · exact ((lost_of_overtaken ran unovertaken).2 user (List.mem_of_mem_tail later)).1

theorem phase_of_not_mem {begin : System} {id : Nat}
    (ran : begin.run settings requests events = some final) (unused : id ∉ events) :
    final.phase id = begin.phase id := by
  induction events generalizing begin with
  | nil =>
    obtain rfl := Option.some.inj ran
    rfl
  | cons event rest ih =>
    rw [run, List.foldlM_cons, Option.bind_eq_bind, Option.bind_eq_some_iff] at ran
    obtain ⟨next, stepped, ran⟩ := ran
    rw [List.mem_cons, not_or] at unused
    refine (ih ran unused.2).trans ?_
    cases moves_of_step settings requests stepped <;> simp [unused.1, update_user_role_by_id]

theorem complete_of_two (ran : (empty enable_signup).run settings requests events = some final)
    (two : ∀ id ∈ events, id = 0 ∨ id = 1) (first : final.phase 0 = .registered)
    (second : final.phase 1 = .registered) : final.Complete := by
  intro id
  by_cases used : id ∈ events
  · rcases two id used with rfl | rfl
    · exact .inr (.inl first)
    · exact .inr (.inl second)
  · exact .inl (phase_of_not_mem ran used)

end Runs

end Elect

def plainSettings : Settings := ⟨true, true, false, .pending⟩

def twoRequests : Nat → Request
  | 0 => ⟨.password, "ann@example.com"⟩
  | _ => ⟨.oauth, "bob@example.com"⟩

def overtakingEvents : List Nat := [0, 0, 0, 0, 0, 1, 1, 1, 0, 1]

def orderlyEvents : List Nat := [0, 0, 0, 0, 0, 1, 1, 0, 1, 0, 1, 0]

/-- Two users are registered, and neither is an admin. -/
theorem no_admin_elected : ∃ final,
    (empty true).run plainSettings twoRequests overtakingEvents = some final ∧ final.Complete ∧
      final.users.map User.role = [.pending, .pending] ∧ ¬ final.ElectsOne plainSettings := by
  obtain ⟨final, ran⟩ : ∃ final,
      (empty true).run plainSettings twoRequests overtakingEvents = some final := ⟨_, rfl⟩
  have roles : final.users.map User.role = [.pending, .pending] := by
    obtain rfl := Option.some.inj ran
    rfl
  refine ⟨final, ran, complete_of_two ran (by decide) ?_ ?_, roles, ?_⟩
  · obtain rfl := Option.some.inj ran
    rfl
  · obtain rfl := Option.some.inj ran
    rfl
  · rintro ⟨elected, member, is_admin, _⟩
    have role := @List.mem_map_of_mem _ _ _ _ User.role member
    rw [roles, is_admin] at role
    exact absurd role (by decide)

theorem overtakingEvents_default : ∃ final,
    (empty true).run plainSettings twoRequests overtakingEvents = some final ∧
      ∀ user ∈ final.users.tail, user.role = .pending := by
  obtain ⟨final, ran⟩ : ∃ final,
      (empty true).run plainSettings twoRequests overtakingEvents = some final := ⟨_, rfl⟩
  exact ⟨final, ran, later_users_default ran⟩

theorem orderlyEvents_elect : ∃ final,
    (empty true).run plainSettings twoRequests orderlyEvents = some final ∧
      final.users.map User.role = [.admin, .pending] ∧ final.ElectsOne plainSettings := by
  obtain ⟨final, ran⟩ : ∃ final,
      (empty true).run plainSettings twoRequests orderlyEvents = some final := ⟨_, rfl⟩
  have roles : final.users.map User.role = [.admin, .pending] := by
    obtain rfl := Option.some.inj ran
    rfl
  have complete : final.Complete := by
    refine complete_of_two ran (by decide) ?_ ?_ <;> (obtain rfl := Option.some.inj ran; rfl)
  have succeeded : final.users ≠ [] := by
    intro none_yet
    rw [none_yet] at roles
    cases roles
  refine ⟨final, ran, roles, (first_admin_iff ran complete succeeded).mpr ⟨?_, .inl (by decide)⟩⟩
  simp only [Unovertaken, orderlyEvents, Runs.always_cons, Runs.always_nil, and_true]
  refine ⟨?_, ?_, ?_, ?_, ?first, ?_, ?_, ?_, ?second, ?_, ?_, ?_⟩
  case first =>
    rintro old reached ⟨_, _, user, users, _⟩
    obtain rfl := Option.some.inj reached
    cases users
  case second =>
    rintro old reached ⟨_, _, user, users, inserted⟩
    obtain rfl := Option.some.inj reached
    cases users
    cases inserted
  all_goals
    rintro old reached ⟨⟨role, ready⟩, _⟩
    obtain rfl := Option.some.inj reached
    cases ready

end System

end OpenWebui.Signup
