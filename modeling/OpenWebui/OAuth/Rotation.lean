import Mathlib.Data.Fintype.EquivFin
import OpenWebui.OAuth.Refresh

/-! A session survives concurrent refreshes exactly when every request presents the refresh token
that was issued last. -/

namespace OpenWebui.OAuth

def Phase.reading : Phase → Option Session
  | .discovering session => some session
  | .requesting session => some session
  | _ => none

namespace System

/-- The refresh token that the call presents is the one issued last, and the provider tells where
to present it. -/
def Fair (system : System) (event : Nat × Action) : Prop :=
  match event.2 with
  | .discover answered => answered = true
  | .request _ => ∀ session, system.calls event.1 = .requesting session →
      session.token.refresh_token = system.issued
  | _ => True

/-- Every call has returned. -/
def Complete (system : System) : Prop :=
  ∀ call, system.calls call = .idle ∨ ∃ token, system.calls call = .returned token

def undisturbed (system : System) (call : Nat) (force_refresh : Bool) (now : ℚ) (expires_at : Int)
    (later : ℚ) : List (Nat × Action) :=
  (call, .read force_refresh now) ::
    if system.session.any (fun session => needsRefresh session force_refresh now) then
      [(call, .discover true), (call, .request expires_at), (call, .update later), (call, .select)]
    else []

/-- A further call returns the token that was issued last. -/
def Serves (system : System) : Prop :=
  ∀ call force_refresh now expires_at later, system.calls call = .idle →
    ∃ final token,
      system.run (system.undisturbed call force_refresh now expires_at later) = some final ∧
        final.calls call = .returned (some token) ∧ token.refresh_token = final.issued

/-- The session is there in every state, with the refresh token issued last yet to be used, and
afterwards a further call is served. -/
structure Survives (begin final : System) (events : List (Nat × Action)) : Prop where
  kept : ∀ earlier later reached, events = earlier ++ later →
    begin.run earlier = some reached → reached.session.isSome = true
  serves : final.Serves

/-- The steps of a call, one by one. -/
inductive Moves (old : System) (call : Nat) : Action → System → Prop where
  | read (force_refresh : Bool) (now : ℚ) (idle : old.calls call = .idle) :
      Moves old call (.read force_refresh now)
        (old.setPhase call (afterRead old.session force_refresh now))
  | discover (session : Session) (answered : Bool)
      (discovering : old.calls call = .discovering session) :
      Moves old call (.discover answered)
        (old.setPhase call (if answered then .requesting session else .failed))
  | honoured (session : Session) (expires_at : Int)
      (requesting : old.calls call = .requesting session)
      (last : session.token.refresh_token = old.issued) :
      Moves old call (.request expires_at)
        ({ old with issued := old.issued + 1 }.setPhase call
          (.received ⟨old.issued + 1, expires_at⟩))
  | refused (session : Session) (expires_at : Int)
      (requesting : old.calls call = .requesting session)
      (used : session.token.refresh_token ≠ old.issued) :
      Moves old call (.request expires_at) (old.setPhase call .failed)
  | update (token : Token) (now : ℚ) (received : old.calls call = .received token) :
      Moves old call (.update now)
        ({ old with
          session := old.session.map (fun session => updated session token now) }.setPhase
            call .stored)
  | select (stored : old.calls call = .stored) :
      Moves old call .select (old.setPhase call (afterSelect old.session))
  | delete (failed : old.calls call = .failed) :
      Moves old call .delete ({ old with session := none }.setPhase call (.returned none))

theorem moves_of_act {old new : System} {call : Nat} {action : Action}
    (acted : old.act (call, action) = some new) : Moves old call action new := by
  unfold act at acted
  split at acted
  · rename_i force_refresh now idle same
    cases acted
    cases same
    exact .read force_refresh now idle
  · rename_i session answered discovering same
    cases acted
    cases same
    exact .discover session answered discovering
  · rename_i session expires_at requesting same
    cases same
    split at acted
    · rename_i last
      cases acted
      exact .honoured session expires_at requesting last
    · rename_i used
      cases acted
      exact .refused session expires_at requesting used
  · rename_i token now received same
    cases acted
    cases same
    exact .update token now received
  · rename_i stored same
    cases acted
    cases same
    exact .select stored
  · rename_i failed same
    cases acted
    cases same
    exact .delete failed
  · cases acted

@[simp] theorem calls_setPhase (system : System) (call other : Nat) (phase : Phase) :
    (system.setPhase call phase).calls other = if other = call then phase else system.calls other :=
  Function.update_apply ..

@[simp] theorem session_setPhase (system : System) (call : Nat) (phase : Phase) :
    (system.setPhase call phase).session = system.session := rfl

@[simp] theorem issued_setPhase (system : System) (call : Nat) (phase : Phase) :
    (system.setPhase call phase).issued = system.issued := rfl

theorem calls_other {old new : System} {call other : Nat} {action : Action}
    (moves : Moves old call action new) (apart : other ≠ call) :
    new.calls other = old.calls other := by
  cases moves <;> simp [apart]

theorem failed_deletes {start final : System} {call : Nat} {events : List (Nat × Action)}
    (failed : start.calls call = .failed) (ran : start.run events = some final)
    (ends : final.calls call ≠ .failed) : ∃ earlier later reached, events = earlier ++ later ∧
      start.run earlier = some reached ∧ reached.session = none := by
  induction events generalizing start with
  | nil =>
    obtain rfl := Option.some.inj ran
    exact absurd failed ends
  | cons event rest ih =>
    rw [run, List.foldlM_cons, Option.bind_eq_bind, Option.bind_eq_some_iff] at ran
    obtain ⟨next, acted, ran⟩ := ran
    obtain ⟨actor, action⟩ := event
    have moves := moves_of_act acted
    by_cases same : call = actor
    · subst same
      refine ⟨[(call, action)], rest, next, rfl, by simp [run, acted], ?_⟩
      cases moves with
      | delete failed => rfl
      | read force_refresh now idle => cases failed.symm.trans idle
      | discover session answered discovering => cases failed.symm.trans discovering
      | honoured session expires_at requesting last => cases failed.symm.trans requesting
      | refused session expires_at requesting used => cases failed.symm.trans requesting
      | update token now received => cases failed.symm.trans received
      | select stored => cases failed.symm.trans stored
    · have still : next.calls call = .failed := (calls_other moves same).trans failed
      obtain ⟨earlier, later, reached, rfl, ran, gone⟩ := ih still ran
      exact ⟨(actor, action) :: earlier, later, reached, rfl, by simp [run, acted, ran], gone⟩

theorem idle_of_not_mem {start final : System} {call : Nat} {events : List (Nat × Action)}
    (idle : start.calls call = .idle) (ran : start.run events = some final)
    (unused : call ∉ events.map Prod.fst) : final.calls call = .idle := by
  induction events generalizing start with
  | nil =>
    obtain rfl := Option.some.inj ran
    exact idle
  | cons event rest ih =>
    rw [run, List.foldlM_cons, Option.bind_eq_bind, Option.bind_eq_some_iff] at ran
    obtain ⟨next, acted, ran⟩ := ran
    rw [List.map_cons, List.mem_cons, not_or] at unused
    exact ih ((calls_other (moves_of_act acted) unused.1).trans idle) ran unused.2

/-- What holds in every state of a fair run: the row is there, no call has failed, and the token
issued last is in the row or on its way there, with one call. -/
structure Inv (provider : String) (system : System) (row : Session) : Prop where
  found : system.session = some row
  provider : row.provider = provider
  read : ∀ call session, (system.calls call).reading = some session →
    session.token.refresh_token ≤ row.token.refresh_token
  behind : row.token.refresh_token ≤ system.issued
  received : ∀ call token, system.calls call = .received token →
    token.refresh_token = system.issued ∧ row.token.refresh_token < system.issued ∧
      ∀ other token, system.calls other = .received token → other = call
  carried : row.token.refresh_token < system.issued →
    ∃ call token, system.calls call = .received token
  unfailed : ∀ call, system.calls call ≠ .failed

theorem Inv.set_quiet {provider : String} {system : System} {row : Session}
    (inv : Inv provider system row) {call : Nat} {phase : Phase}
    (quiet : ∀ token, system.calls call ≠ .received token)
    (silent : ∀ token, phase ≠ .received token) (unfailed : phase ≠ .failed)
    (read : ∀ session, phase.reading = some session →
      session.token.refresh_token ≤ row.token.refresh_token) :
    Inv provider (system.setPhase call phase) row where
  found := inv.found
  provider := inv.provider
  read := by
    intro other session reading
    rw [calls_setPhase] at reading
    split at reading
    · exact read session reading
    · exact inv.read other session reading
  behind := inv.behind
  received := by
    intro other token received
    rw [calls_setPhase] at received
    split at received
    · exact absurd received (silent token)
    · obtain ⟨last, ahead, once⟩ := inv.received other token received
      refine ⟨last, ahead, ?_⟩
      intro third token' received'
      rw [calls_setPhase] at received'
      split at received'
      · exact absurd received' (silent token')
      · exact once third token' received'
  carried := by
    intro ahead
    obtain ⟨carrier, token, received⟩ := inv.carried ahead
    refine ⟨carrier, token, ?_⟩
    rw [calls_setPhase, if_neg]
    · exact received
    · rintro rfl
      exact quiet token received
  unfailed := by
    intro other failed
    rw [calls_setPhase] at failed
    split at failed
    · exact unfailed failed
    · exact inv.unfailed other failed

theorem Inv.step {provider : String} {old new : System} {row : Session}
    (inv : Inv provider old row) {event : Nat × Action} (fair : old.Fair event)
    (acted : old.act event = some new) : ∃ row, Inv provider new row := by
  obtain ⟨call, action⟩ := event
  cases moves_of_act acted with
  | read force_refresh now idle =>
    refine ⟨row, inv.set_quiet (by simp [idle]) ?_ ?_ ?_⟩ <;>
      simp only [inv.found, afterRead] <;> split <;> (try split) <;>
      simp [Phase.reading]
  | discover session answered discovering =>
    obtain rfl : answered = true := fair
    refine ⟨row, inv.set_quiet (by simp [discovering]) (by simp) (by simp) ?_⟩
    intro read same
    obtain rfl := Option.some.inj same
    exact inv.read call session (by rw [discovering]; rfl)
  | honoured session expires_at requesting last =>
    have current : session.token.refresh_token ≤ row.token.refresh_token :=
      inv.read call session (by rw [requesting]; rfl)
    have level : row.token.refresh_token = old.issued :=
      le_antisymm inv.behind (last ▸ current)
    have none_received : ∀ other token, old.calls other ≠ .received token := by
      intro other token received
      exact absurd (inv.received other token received).2.1 (by rw [level]; exact lt_irrefl _)
    refine ⟨row, inv.found, inv.provider, ?_, ?_, ?_, ?_, ?_⟩
    case refine_1 =>
      intro other read reading
      rw [calls_setPhase] at reading
      split at reading
      · cases reading
      · exact inv.read other read reading
    case refine_2 => exact inv.behind.trans (Nat.le_succ _)
    case refine_3 =>
      intro other token received
      rw [calls_setPhase] at received
      split at received
      · rename_i same
        cases received
        refine ⟨rfl, Nat.lt_succ_of_le inv.behind, ?_⟩
        intro third token' received'
        rw [calls_setPhase] at received'
        split at received'
        · rename_i also
          exact also.trans same.symm
        · exact absurd received' (none_received third token')
      · exact absurd received (none_received other token)
    case refine_4 => exact fun _ => ⟨call, _, by rw [calls_setPhase, if_pos rfl]⟩
    case refine_5 =>
      intro other failed
      rw [calls_setPhase] at failed
      split at failed
      · cases failed
      · exact inv.unfailed other failed
  | refused session expires_at requesting used => exact absurd (fair session requesting) used
  | update token now received =>
    obtain ⟨last, ahead, once⟩ := inv.received call token received
    have alone : ∀ other token', (if other = call then Phase.stored else old.calls other) ≠
        .received token' := by
      intro other token' received'
      split at received'
      · cases received'
      · rename_i apart
        exact apart (once other token' received')
    refine ⟨updated row token now, by simp [inv.found], inv.provider, ?_, ?_, ?_, ?_, ?_⟩
    case refine_1 =>
      intro other session reading
      rw [calls_setPhase] at reading
      split at reading
      · cases reading
      · exact (inv.read other session reading).trans (inv.behind.trans last.ge)
    case refine_2 => exact last.le
    case refine_3 =>
      intro other token' received'
      rw [calls_setPhase] at received'
      exact absurd received' (alone other token')
    case refine_4 => exact fun behind => absurd last (Nat.ne_of_lt behind)
    case refine_5 =>
      intro other failed
      rw [calls_setPhase] at failed
      split at failed
      · cases failed
      · exact inv.unfailed other failed
  | select stored =>
    refine ⟨row, inv.set_quiet (by simp [stored]) ?_ ?_ ?_⟩ <;>
      simp [inv.found, afterSelect, Phase.reading]
  | delete failed => exact absurd failed (inv.unfailed call)

theorem inv_start (session : Session) : Inv session.provider (start session) session where
  found := rfl
  provider := rfl
  read := by simp [start, Phase.reading]
  behind := le_refl _
  received := by simp [start]
  carried := fun ahead => absurd ahead (lt_irrefl _)
  unfailed := by simp [start]

/-- A run all of whose requests are fair. -/
def FairRun (begin : System) (events : List (Nat × Action)) : Prop :=
  Runs.Always (fun earlier event => ∀ old, begin.run earlier = some old → old.Fair event) events

theorem inv_run {session : Session} {events : List (Nat × Action)} {final : System}
    (fair : FairRun (start session) events) (ran : (start session).run events = some final) :
    ∃ row, Inv session.provider final row := by
  refine Runs.foldlM_invariant (fun system => ∃ row, Inv session.provider system row) ?_
    ⟨session, inv_start session⟩ fair ran
  rintro old event new ⟨row, inv⟩ good acted
  exact inv.step good acted

theorem Inv.serves {provider : String} {system : System} {row : Session}
    (inv : Inv provider system row) (complete : system.Complete) (refreshed : mcp row = false) :
    system.Serves := by
  have level : row.token.refresh_token = system.issued := by
    refine le_antisymm inv.behind (not_lt.mp fun ahead => ?_)
    obtain ⟨call, token, received⟩ := inv.carried ahead
    rcases complete call with idle | ⟨returned, done⟩
    · cases received.symm.trans idle
    · cases received.symm.trans done
  intro call force_refresh now expires_at later idle
  cases needed : needsRefresh row force_refresh now with
  | false =>
    refine ⟨system.setPhase call (.returned (some row.token)), row.token, ?_, by simp, level⟩
    simp [undisturbed, inv.found, needed, run, act, idle, afterRead, refreshed]
  | true =>
    let token : Token := ⟨system.issued + 1, expires_at⟩
    refine ⟨{ system with
      session := some (updated row token later), issued := system.issued + 1,
      calls := Function.update system.calls call (.returned (some token)) }, token, ?_, by simp, rfl⟩
    simp [undisturbed, inv.found, needed, run, act, idle, afterRead, refreshed, setPhase, level,
      afterSelect, updated, token]

/-- The session survives exactly the runs whose requests all present the token issued last. -/
theorem session_survives_iff {session : Session} {events : List (Nat × Action)} {final : System}
    (ran : (start session).run events = some final) (complete : final.Complete) :
    Survives (start session) final events ↔
      mcp session = false ∧ FairRun (start session) events := by
  constructor
  · rintro ⟨kept, serves⟩
    have fair : FairRun (start session) events := by
      rintro earlier ⟨call, action⟩ later split old reached
      by_contra unfair
      rw [split, run, List.foldlM_append, Option.bind_eq_bind, Option.bind_eq_some_iff] at ran
      obtain ⟨same, again, ran⟩ := ran
      obtain rfl := Option.some.inj (reached.symm.trans again)
      rw [List.foldlM_cons, Option.bind_eq_bind, Option.bind_eq_some_iff] at ran
      obtain ⟨next, acted, rest⟩ := ran
      have failed : next.calls call = .failed := by
        cases moves_of_act acted with
        | discover session answered discovering =>
          have silent : answered = false := by simpa [Fair] using unfair
          simp [silent]
        | honoured session expires_at requesting last =>
          refine absurd ?_ unfair
          intro other same
          cases requesting.symm.trans same
          exact last
        | refused session expires_at requesting used => simp
        | read force_refresh now idle => exact absurd trivial unfair
        | update token now received => exact absurd trivial unfair
        | select stored => exact absurd trivial unfair
        | delete failed => exact absurd trivial unfair
      have ends : final.calls call ≠ .failed := by
        rcases complete call with idle | ⟨token, returned⟩
        · simp [idle]
        · simp [returned]
      obtain ⟨before, after, gone, rfl, ran, missing⟩ := failed_deletes failed rest ends
      have there := kept (earlier ++ (call, action) :: before) after gone (by simp [split])
        (by simp [run, List.foldlM_append, reached, acted, ran])
      simp [missing] at there
    refine ⟨?_, fair⟩
    obtain ⟨row, inv⟩ := inv_run fair ran
    obtain ⟨call, unused⟩ := Infinite.exists_notMem_finset (events.map Prod.fst).toFinset
    have idle : final.calls call = .idle :=
      idle_of_not_mem rfl ran (fun member => unused (List.mem_toFinset.mpr member))
    by_contra guarded
    obtain ⟨last, token, served, returned, _⟩ := serves call false 0 0 0 idle
    have skipped : mcp row = true := by
      rw [mcp, inv.provider]
      simpa [mcp] using guarded
    cases needed : needsRefresh row false 0 with
    | false =>
      simp [undisturbed, inv.found, needed, run, act, idle, afterRead, skipped] at served
      rw [← served] at returned
      simp at returned
    | true => simp [undisturbed, inv.found, needed, run, act, idle, afterRead, skipped] at served
  · rintro ⟨refreshed, fair⟩
    refine ⟨?_, ?_⟩
    · intro earlier later reached split ran
      have part : FairRun (start session) earlier := by
        intro first event rest same
        exact fair first event (rest ++ later) (by simp [split, same])
      obtain ⟨row, inv⟩ := inv_run part ran
      rw [inv.found]
      rfl
    · obtain ⟨row, inv⟩ := inv_run fair ran
      refine inv.serves complete ?_
      rw [mcp, inv.provider]
      exact refreshed

def googleSession : Session := ⟨"google", ⟨0, 0⟩, none⟩

def refreshSteps (call : Nat) : List (Nat × Action) :=
  [(call, .read true 0), (call, .discover true), (call, .request 3600), (call, .update 0),
    (call, .select)]

def orderlyEvents : List (Nat × Action) := refreshSteps 0 ++ refreshSteps 1

def racingEvents : List (Nat × Action) :=
  [(0, .read false 0), (1, .read false 0), (0, .discover true), (1, .discover true),
    (0, .request 3600), (1, .request 3600), (0, .update 0), (0, .select), (1, .delete)]

theorem complete_of_two {begin final : System} {events : List (Nat × Action)}
    (fresh : ∀ call, begin.calls call = .idle) (ran : begin.run events = some final)
    (two : ∀ call ∈ events.map Prod.fst, call = 0 ∨ call = 1)
    (first : ∃ token, final.calls 0 = .returned token)
    (second : ∃ token, final.calls 1 = .returned token) : final.Complete := by
  intro call
  by_cases used : call ∈ events.map Prod.fst
  · rcases two call used with rfl | rfl
    · exact .inr first
    · exact .inr second
  · exact .inl (idle_of_not_mem (fresh call) ran used)

theorem orderlyEvents_survive : ∃ final, (start googleSession).run orderlyEvents = some final ∧
    final.Complete ∧ FairRun (start googleSession) orderlyEvents ∧
      Survives (start googleSession) final orderlyEvents := by
  obtain ⟨final, ran⟩ : ∃ final, (start googleSession).run orderlyEvents = some final := ⟨_, rfl⟩
  have complete : final.Complete := by
    refine complete_of_two (fun _ => rfl) ran (by decide) ?_ ?_ <;>
      (obtain rfl := Option.some.inj ran; exact ⟨_, rfl⟩)
  have fair : FairRun (start googleSession) orderlyEvents := by
    simp only [FairRun, orderlyEvents, refreshSteps, List.cons_append, List.nil_append,
      Runs.always_cons, Runs.always_nil, and_true]
    refine ⟨?_, ?_, ?first, ?_, ?_, ?_, ?_, ?second, ?_, ?_⟩
    case first =>
      intro old reached session requesting
      obtain rfl := Option.some.inj reached
      cases requesting
      rfl
    case second =>
      intro old reached session requesting
      obtain rfl := Option.some.inj reached
      cases requesting
      rfl
    all_goals first | exact fun _ _ => rfl | exact fun _ _ => trivial
  exact ⟨final, ran, complete, fair,
    (session_survives_iff ran complete).mpr ⟨by decide, fair⟩⟩

/-- The call that loses the race deletes the session, whose new refresh token is unused. -/
theorem session_not_kept : ∃ final, (start googleSession).run racingEvents = some final ∧
    final.Complete ∧ final.session = none ∧ final.issued = 1 ∧
      ¬ Survives (start googleSession) final racingEvents := by
  obtain ⟨final, ran⟩ : ∃ final, (start googleSession).run racingEvents = some final := ⟨_, rfl⟩
  have gone : final.session = none := by
    obtain rfl := Option.some.inj ran
    rfl
  refine ⟨final, ran, ?_, gone, ?_, ?_⟩
  · refine complete_of_two (fun _ => rfl) ran (by decide) ?_ ?_ <;>
      (obtain rfl := Option.some.inj ran; exact ⟨_, rfl⟩)
  · obtain rfl := Option.some.inj ran
    rfl
  · intro survives
    have there := survives.kept racingEvents [] final rfl ran
    simp [gone] at there

end System

end OpenWebui.OAuth
