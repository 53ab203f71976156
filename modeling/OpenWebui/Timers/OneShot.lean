import OpenWebui.Timers.Execution

/-! A timer is executed under one claim at a time: its prompt is put into the parent chat at most
once, by the holder of the claim, and the final states are final. -/

namespace OpenWebui.Timers

def Phase.holding : Phase → Bool
  | .checked _ => true
  | .failing _ => true
  | .waiting => false
  | .done => false

/-- The timer is running under the claim of the execution. -/
structure Held (timer : Timer) (execution : Execution) : Prop where
  running : timer.status = .running
  claim : timer.timer_claim_id = execution.claim_id
  parent : ∀ parent_chat_id, execution.phase = .checked parent_chat_id →
    timer.parent_chat_id = parent_chat_id

/-- What holds between any two transactions: claims are new, no two executions have the same,
a timer under execution is running under that claim, and a prompt was put in by a timer that is
completed. -/
structure Inv (state : State) : Prop where
  timer_claim : ∀ id timer claim, state.timers.get? id = some timer →
    timer.timer_claim_id = some claim → claim < state.next_claim
  execution_claim : ∀ execution ∈ state.executions, ∃ claim,
    execution.claim_id = some claim ∧ claim < state.next_claim
  distinct : (state.executions.map Execution.claim_id).Nodup
  held : ∀ execution ∈ state.executions, execution.phase.holding = true →
    ∃ timer, state.timers.get? execution.timer_id = some timer ∧ Held timer execution
  once : (state.inserted.map Insertion.timer_id).Nodup
  completed : ∀ insertion ∈ state.inserted, ∃ timer,
    state.timers.get? insertion.timer_id = some timer ∧ timer.status = .completed ∧
      timer.parent_chat_id = insertion.parent_chat_id

theorem mem_dueTimers {timers : Dict String Timer} {now_ns : Int} {limit : Nat} {id : String}
    (due : id ∈ dueTimers timers now_ns limit) :
    ∃ timer, timers.get? id = some timer ∧ timer.status = .pending := by
  obtain ⟨row, member, rfl⟩ := List.mem_map.mp due
  have sorted := List.mem_of_mem_take member
  rw [List.mem_mergeSort, List.mem_filter, decide_eq_true_iff] at sorted
  exact ⟨row.2, Dict.mem_entries_iff.mp sorted.1, sorted.2.1⟩

theorem claimed_lookup {state : State} {now_ns : Int} {limit : Nat} {id : String} {claim : ClaimId}
    (found : (claimed state now_ns limit).lookup id = some claim) :
    (∃ timer, state.timers.get? id = some timer ∧ timer.status = .pending) ∧
      state.next_claim ≤ claim ∧ claim < state.next_claim + (claimed state now_ns limit).length := by
  obtain ⟨place, within, same⟩ := List.mem_mapIdx.mp (Assoc.mem_of_lookup found)
  obtain ⟨rfl, rfl⟩ := Prod.mk.inj same
  refine ⟨mem_dueTimers (List.getElem_mem within), Nat.le_add_right _ _, ?_⟩
  simpa [claimed] using within

theorem mem_claimed {state : State} {now_ns : Int} {limit : Nat} {claim : String × ClaimId}
    (member : claim ∈ claimed state now_ns limit) :
    state.next_claim ≤ claim.2 ∧
      claim.2 < state.next_claim + (claimed state now_ns limit).length := by
  obtain ⟨place, within, rfl⟩ := List.mem_mapIdx.mp member
  exact ⟨Nat.le_add_right _ _, by simpa [claimed] using within⟩

theorem claimed_distinct (state : State) (now_ns : Int) (limit : Nat) :
    ((claimed state now_ns limit).map Prod.snd).Nodup := by
  rw [List.Nodup, List.pairwise_iff_getElem]
  intro first second _ _ before
  simp [claimed]
  omega

theorem get?_claim (state : State) (now_ns : Int) (limit : Nat) (id : String) :
    (claim_due_timers now_ns limit state).timers.get? id =
      (state.timers.get? id).map (fun timer =>
        match (claimed state now_ns limit).lookup id with
        | some claim_id => timer.claim now_ns claim_id
        | none => timer) :=
  Dict.get?_mapValue state.timers _ id

theorem get?_claim_of_not_pending {state : State} {id : String} {timer : Timer}
    (found : state.timers.get? id = some timer) (other : timer.status ≠ .pending) (now_ns : Int)
    (limit : Nat) : (claim_due_timers now_ns limit state).timers.get? id = some timer := by
  rw [get?_claim, found, Option.map_some]
  cases taken : (claimed state now_ns limit).lookup id with
  | none => rfl
  | some claim =>
    obtain ⟨⟨row, same, pending⟩, _⟩ := claimed_lookup taken
    obtain rfl := Option.some.inj (found.symm.trans same)
    exact absurd pending other

theorem get?_cancel_of_not_pending {state : State} {id : String} {timer : Timer}
    (found : state.timers.get? id = some timer) (other : timer.status ≠ .pending)
    (parent_chat_id : String) (event : CancelEvent) (user_id : String) :
    (cancel_timers_for_chat parent_chat_id event user_id state).timers.get? id = some timer := by
  simp [cancel_timers_for_chat, found, Timer.cancelledBy, other]

@[simp] theorem timers_setPhase (state : State) (place : Nat) (phase : Phase) :
    (state.setPhase place phase).timers = state.timers := rfl

@[simp] theorem inserted_setPhase (state : State) (place : Nat) (phase : Phase) :
    (state.setPhase place phase).inserted = state.inserted := rfl

@[simp] theorem next_claim_setPhase (state : State) (place : Nat) (phase : Phase) :
    (state.setPhase place phase).next_claim = state.next_claim := rfl

theorem claims_setPhase (state : State) (place : Nat) (phase : Phase) :
    (state.setPhase place phase).executions.map Execution.claim_id =
      state.executions.map Execution.claim_id := by
  apply List.ext_getElem?
  intro index
  simp only [State.setPhase, List.getElem?_map, List.getElem?_modify]
  cases state.executions[index]? with
  | none => rfl
  | some execution => by_cases same : place = index <;> simp [same]

theorem mem_setPhase {state : State} {place : Nat} {phase : Phase} {changed : Execution}
    (member : changed ∈ (state.setPhase place phase).executions) :
    ∃ index execution, state.executions[index]? = some execution ∧
      changed = if place = index then { execution with phase := phase } else execution := by
  obtain ⟨index, found⟩ := List.mem_iff_getElem?.mp member
  rw [State.setPhase, List.getElem?_modify] at found
  cases here : state.executions[index]? with
  | none => simp [here] at found
  | some execution =>
    refine ⟨index, execution, here, ?_⟩
    rw [here] at found
    exact (Option.some.inj found).symm

theorem mayExecute_some (timer : Timer) (claim : ClaimId) :
    mayExecute timer (some claim) = true ↔
      timer.status = .running ∧ timer.timer_claim_id = some claim := by
  simp [mayExecute]

section Keep

variable {state : State}

theorem Inv.same_place (inv : Inv state) {first second : Nat} {one two : Execution}
    (here : state.executions[first]? = some one) (there : state.executions[second]? = some two)
    (same : one.claim_id = two.claim_id) : first = second := by
  have bound : first < (state.executions.map Execution.claim_id).length := by
    simpa using (List.getElem?_eq_some_iff.mp here).1
  refine (List.getElem?_inj bound inv.distinct).mp ?_
  simp [here, there, same]

theorem Inv.setPhase (inv : Inv state) (place : Nat) {phase : Phase}
    (held : ∀ execution, state.executions[place]? = some execution → phase.holding = true →
      ∃ timer, state.timers.get? execution.timer_id = some timer ∧
        Held timer { execution with phase := phase }) : Inv (state.setPhase place phase) where
  timer_claim := inv.timer_claim
  execution_claim changed member := by
    obtain ⟨index, execution, here, rfl⟩ := mem_setPhase member
    have old := inv.execution_claim execution (List.mem_of_getElem? here)
    split <;> exact old
  distinct := by
    rw [claims_setPhase]
    exact inv.distinct
  held changed member holding := by
    obtain ⟨index, execution, here, rfl⟩ := mem_setPhase member
    split at holding
    · rename_i same
      subst same
      rw [if_pos rfl]
      exact held execution here holding
    · rename_i different
      rw [if_neg different]
      exact inv.held execution (List.mem_of_getElem? here) holding
  once := inv.once
  completed := inv.completed

theorem Inv.stop (inv : Inv state) (place : Nat) : Inv (state.setPhase place .done) :=
  inv.setPhase place (fun _ _ => nofun)

theorem Inv.release (inv : Inv state) {place : Nat} {execution : Execution}
    (found : state.executions[place]? = some execution) (holding : execution.phase.holding = true)
    (change : Timer → Timer)
    (claim : ∀ timer claim, (change timer).timer_claim_id = some claim →
      timer.timer_claim_id = some claim) :
    Inv ((state.update execution.timer_id change).setPhase place .done) := by
  obtain ⟨timer, stored, held⟩ := inv.held execution (List.mem_of_getElem? found) holding
  refine ⟨?_, ?_, ?_, ?_, inv.once, ?_⟩
  · intro id row given here owned
    simp only [timers_setPhase, State.update, Dict.get?_modify] at here
    split at here
    · obtain ⟨old, was, rfl⟩ := Option.map_eq_some_iff.mp here
      exact inv.timer_claim id old given was (claim old given owned)
    · exact inv.timer_claim id row given here owned
  · exact (inv.stop place).execution_claim
  · exact (inv.stop place).distinct
  · intro changed member active
    obtain ⟨index, other, here, rfl⟩ := mem_setPhase member
    by_cases same : place = index
    · rw [if_pos same] at active
      cases active
    · rw [if_neg same] at active ⊢
      obtain ⟨row, was, holds⟩ := inv.held other (List.mem_of_getElem? here) active
      have apart : execution.timer_id ≠ other.timer_id := by
        intro equal
        rw [← equal, stored] at was
        obtain rfl := Option.some.inj was
        exact same (inv.same_place found here (held.claim.symm.trans holds.claim))
      refine ⟨row, ?_, holds⟩
      simp [State.update, apart, was]
  · intro insertion member
    obtain ⟨row, was, completed, parent⟩ := inv.completed insertion member
    have apart : execution.timer_id ≠ insertion.timer_id := by
      intro equal
      rw [← equal, stored] at was
      obtain rfl := Option.some.inj was
      exact absurd (held.running.symm.trans completed) (by decide)
    refine ⟨row, ?_, completed, parent⟩
    simp [State.update, apart, was]

theorem Inv.claim (inv : Inv state) (now_ns : Int) (limit : Nat) :
    Inv (claim_due_timers now_ns limit state) where
  timer_claim id timer claim here owned := by
    change claim < state.next_claim + _
    rw [get?_claim] at here
    obtain ⟨old, was, rfl⟩ := Option.map_eq_some_iff.mp here
    cases taken : (claimed state now_ns limit).lookup id with
    | none =>
      rw [taken] at owned
      exact Nat.lt_add_right _ (inv.timer_claim id old claim was owned)
    | some given =>
      rw [taken] at owned
      obtain rfl := Option.some.inj owned
      exact (claimed_lookup taken).2.2
  execution_claim execution member := by
    rcases List.mem_append.mp member with old | fresh
    · obtain ⟨claim, same, bound⟩ := inv.execution_claim execution old
      exact ⟨claim, same, Nat.lt_add_right _ bound⟩
    · obtain ⟨claim, given, rfl⟩ := List.mem_map.mp fresh
      exact ⟨claim.2, rfl, (mem_claimed given).2⟩
  distinct := by
    have new : ((claimed state now_ns limit).map (fun claim => some claim.2)).Nodup := by
      have spread := claimed_distinct state now_ns limit
      rw [List.Nodup, List.pairwise_map] at spread ⊢
      exact spread.imp (fun different same => different (Option.some.inj same))
    rw [claim_due_timers, List.map_append, List.map_map]
    refine List.nodup_append.mpr ⟨inv.distinct, new, ?_⟩
    intro first old second fresh
    obtain ⟨execution, member, rfl⟩ := List.mem_map.mp old
    obtain ⟨claim, given, rfl⟩ := List.mem_map.mp fresh
    obtain ⟨older, same, bound⟩ := inv.execution_claim execution member
    have later := (mem_claimed given).1
    rw [same]
    intro equal
    exact absurd (Option.some.inj equal ▸ bound) (Nat.not_lt.mpr later)
  held execution member holding := by
    rcases List.mem_append.mp member with old | fresh
    · obtain ⟨timer, was, held⟩ := inv.held execution old holding
      have other : timer.status ≠ .pending := by
        rw [held.running]
        decide
      exact ⟨timer, get?_claim_of_not_pending was other now_ns limit, held⟩
    · obtain ⟨claim, _, rfl⟩ := List.mem_map.mp fresh
      cases holding
  once := inv.once
  completed insertion member := by
    obtain ⟨timer, was, completed, parent⟩ := inv.completed insertion member
    have other : timer.status ≠ .pending := by
      rw [completed]
      decide
    exact ⟨timer, get?_claim_of_not_pending was other now_ns limit, completed, parent⟩

theorem Inv.cancel (inv : Inv state) (parent_chat_id : String) (event : CancelEvent)
    (user_id : String) : Inv (cancel_timers_for_chat parent_chat_id event user_id state) where
  timer_claim id timer claim here owned := by
    rw [cancel_timers_for_chat, Dict.get?_mapValue] at here
    obtain ⟨old, was, rfl⟩ := Option.map_eq_some_iff.mp here
    refine inv.timer_claim id old claim was ?_
    split at owned <;> exact owned
  execution_claim := inv.execution_claim
  distinct := inv.distinct
  held execution member holding := by
    obtain ⟨timer, was, held⟩ := inv.held execution member holding
    have other : timer.status ≠ .pending := by
      rw [held.running]
      decide
    exact ⟨timer, get?_cancel_of_not_pending was other parent_chat_id event user_id, held⟩
  once := inv.once
  completed insertion member := by
    obtain ⟨timer, was, completed, parent⟩ := inv.completed insertion member
    have other : timer.status ≠ .pending := by
      rw [completed]
      decide
    exact ⟨timer, get?_cancel_of_not_pending was other parent_chat_id event user_id, completed,
      parent⟩

theorem Inv.check (inv : Inv state) {place : Nat} {execution : Execution}
    (found : state.executions[place]? = some execution) : Inv (check state place execution) := by
  refine inv.setPhase place ?_
  intro other here holding
  obtain rfl := Option.some.inj (found.symm.trans here)
  obtain ⟨claim, owned, _⟩ := inv.execution_claim execution (List.mem_of_getElem? found)
  cases stored : state.timers.get? execution.timer_id with
  | none =>
    rw [stored] at holding
    cases holding
  | some timer =>
    refine ⟨timer, rfl, ?_⟩
    rw [stored] at holding
    by_cases may : mayExecute timer execution.claim_id
    · have under := may
      rw [owned, mayExecute_some] at under
      refine ⟨under.1, under.2.trans owned.symm, ?_⟩
      intro parent_chat_id checked
      simp only [if_pos may] at checked
      exact Phase.checked.inj checked
    · simp only [if_neg may] at holding
      cases holding

theorem Inv.complete (inv : Inv state) {place : Nat} {execution : Execution}
    {parent_chat_id : String} (found : state.executions[place]? = some execution)
    (checked : execution.phase = .checked parent_chat_id) :
    Inv (complete state place execution parent_chat_id) := by
  have holding : execution.phase.holding = true := by rw [checked]; rfl
  obtain ⟨timer, stored, held⟩ := inv.held execution (List.mem_of_getElem? found) holding
  have kept := inv.release found holding (fun timer => { timer with status := .completed })
    (fun _ _ => id)
  refine ⟨kept.timer_claim, kept.execution_claim, kept.distinct, kept.held, ?_, ?_⟩
  · have new : execution.timer_id ∉ state.inserted.map Insertion.timer_id := by
      intro again
      obtain ⟨insertion, member, same⟩ := List.mem_map.mp again
      obtain ⟨row, was, completed, _⟩ := inv.completed insertion member
      rw [same, stored] at was
      obtain rfl := Option.some.inj was
      exact absurd (held.running.symm.trans completed) (by decide)
    rw [Timers.complete, List.map_append]
    refine List.nodup_append.mpr ⟨inv.once, by simp, ?_⟩
    intro first old second last
    rintro rfl
    obtain rfl := List.mem_singleton.mp last
    exact new old
  · intro insertion member
    rcases List.mem_append.mp member with old | last
    · exact kept.completed insertion old
    · obtain rfl := List.mem_singleton.mp last
      refine ⟨{ timer with status := .completed }, ?_, rfl, held.parent parent_chat_id checked⟩
      simp [Timers.complete, State.update, stored]

theorem Inv.step {next : State} (inv : Inv state) (step : Step state next) : Inv next := by
  cases step with
  | claim now_ns limit => exact inv.claim now_ns limit
  | cancel parent_chat_id event user_id => exact inv.cancel parent_chat_id event user_id
  | check place execution found waiting => exact inv.check found
  | missing place execution timer_error parent_chat_id found checked known =>
    refine inv.setPhase place ?_
    intro other here _
    obtain rfl := Option.some.inj (found.symm.trans here)
    obtain ⟨timer, stored, held⟩ := inv.held execution (List.mem_of_getElem? found)
      (by rw [checked]; rfl)
    exact ⟨timer, stored, held.running, held.claim, nofun⟩
  | fail place execution timer_error found failing =>
    exact inv.release found (by rw [failing]; rfl) _ (fun _ _ => id)
  | busy place execution parent_chat_id found checked =>
    exact inv.release found (by rw [checked]; rfl) _ (fun _ _ => nofun)
  | complete place execution parent_chat_id found checked => exact inv.complete found checked
  | stop place => exact inv.stop place

end Keep

def Status.final : Status → Bool
  | .completed => true
  | .cancelled => true
  | .error => true
  | .pending => false
  | .running => false

theorem Inv.final_step {state next : State} (inv : Inv state) (step : Step state next)
    {id : String} {timer : Timer} (found : state.timers.get? id = some timer)
    (final : timer.status.final = true) : next.timers.get? id = some timer := by
  have other : timer.status ≠ .pending := by
    intro pending
    rw [pending] at final
    cases final
  -- an execution that changes a timer holds it, and it is running
  have apart : ∀ {place : Nat} {execution : Execution},
      state.executions[place]? = some execution → execution.phase.holding = true →
        ∀ change, (state.update execution.timer_id change).timers.get? id = some timer := by
    intro place execution here holding change
    obtain ⟨row, was, held⟩ := inv.held execution (List.mem_of_getElem? here) holding
    have different : execution.timer_id ≠ id := by
      intro equal
      rw [equal, found] at was
      obtain rfl := Option.some.inj was
      rw [held.running] at final
      cases final
    simp [State.update, different, found]
  cases step with
  | claim now_ns limit => exact get?_claim_of_not_pending found other now_ns limit
  | cancel parent_chat_id event user_id =>
    exact get?_cancel_of_not_pending found other parent_chat_id event user_id
  | check | missing | stop => exact found
  | fail place execution timer_error here failing => exact apart here (by rw [failing]; rfl) _
  | busy place execution parent_chat_id here checked => exact apart here (by rw [checked]; rfl) _
  | complete place execution parent_chat_id here checked =>
    exact apart here (by rw [checked]; rfl) _

theorem Inv.inserted_step {state next : State} (inv : Inv state) (step : Step state next) :
    next.inserted = state.inserted ∨ ∃ insertion timer claim,
      next.inserted = state.inserted ++ [insertion] ∧
        state.timers.get? insertion.timer_id = some timer ∧ timer.status = .running ∧
          timer.timer_claim_id = some claim ∧ insertion.claim_id = some claim ∧
            insertion.parent_chat_id = timer.parent_chat_id := by
  cases step with
  | complete place execution parent_chat_id found checked =>
    have member := List.mem_of_getElem? found
    obtain ⟨timer, stored, held⟩ := inv.held execution member (by rw [checked]; rfl)
    obtain ⟨claim, owned, _⟩ := inv.execution_claim execution member
    exact Or.inr ⟨⟨parent_chat_id, execution.timer_id, execution.claim_id⟩, timer, claim, rfl, stored,
      held.running, held.claim.trans owned, owned, (held.parent parent_chat_id checked).symm⟩
  | _ => exact Or.inl rfl

/-- Timers of any status, none of them under execution, and claim ids that are still to be
given. -/
structure Initial (state : State) : Prop where
  timer_claim : ∀ id timer claim, state.timers.get? id = some timer →
    timer.timer_claim_id = some claim → claim < state.next_claim
  executions : state.executions = []
  inserted : state.inserted = []

theorem Initial.inv {state : State} (initial : Initial state) : Inv state where
  timer_claim := initial.timer_claim
  execution_claim := by simp [initial.executions]
  distinct := by simp [initial.executions]
  held := by simp [initial.executions]
  once := by simp [initial.inserted]
  completed := by simp [initial.inserted]

/-- What holds of a state that workers have reached: every prompt was put in at most once, the
next one is put in by the holder of the claim, cancelled timers never put theirs in, and final
states stay. -/
structure OneShot (state : State) : Prop where
  once : ∀ id, (state.inserted.filter (fun insertion =>
    decide (insertion.timer_id = id))).length ≤ 1
  holder : ∀ next, Step state next → next.inserted = state.inserted ∨
    ∃ insertion timer claim, next.inserted = state.inserted ++ [insertion] ∧
      state.timers.get? insertion.timer_id = some timer ∧ timer.status = .running ∧
        timer.timer_claim_id = some claim ∧ insertion.claim_id = some claim ∧
          insertion.parent_chat_id = timer.parent_chat_id
  cancelled : ∀ id timer, state.timers.get? id = some timer → timer.status = .cancelled →
    ∀ later, Steps.Run Step state later → ∀ insertion ∈ later.inserted, insertion.timer_id ≠ id
  final : ∀ id timer, state.timers.get? id = some timer → timer.status.final = true →
    ∀ later, Steps.Run Step state later → later.timers.get? id = some timer

theorem Inv.run {state later : State} (run : Steps.Run Step state later) (inv : Inv state) :
    Inv later :=
  Steps.invariant Inv (fun _ _ => Inv.step) run inv

theorem Inv.final_run {state later : State} (inv : Inv state) (run : Steps.Run Step state later)
    {id : String} {timer : Timer} (found : state.timers.get? id = some timer)
    (final : timer.status.final = true) : later.timers.get? id = some timer := by
  induction run with
  | refl => exact found
  | tail before last ih => exact (inv.run before).final_step last ih final

theorem Inv.oneShot {state : State} (inv : Inv state) : OneShot state where
  once id := by
    have once := inv.once
    generalize state.inserted = inserted at once
    induction inserted with
    | nil => simp
    | cons insertion rest ih =>
      rw [List.map_cons, List.nodup_cons] at once
      rw [List.filter_cons]
      split
      · rename_i same
        have alone : rest.filter (fun other => decide (other.timer_id = id)) = [] := by
          rw [List.filter_eq_nil_iff]
          intro other member equal
          refine once.1 (List.mem_map.mpr ⟨other, member, ?_⟩)
          exact (of_decide_eq_true equal).trans (of_decide_eq_true same).symm
        simp [alone]
      · exact ih once.2
  holder next step := inv.inserted_step step
  cancelled id timer found cancelled later run insertion member same := by
    have final : timer.status.final = true := by rw [cancelled]; rfl
    have kept := inv.final_run run found final
    obtain ⟨row, stored, completed, _⟩ := (inv.run run).completed insertion member
    rw [same, kept] at stored
    obtain rfl := Option.some.inj stored
    exact absurd (cancelled.symm.trans completed) (by decide)
  final id timer found final later run := inv.final_run run found final

/-- Whatever the interleaving of the workers, timers fire at most once and never after they were
cancelled. -/
theorem timers_one_shot (start : State) (initial : Initial start) (state : State)
    (run : Steps.Run Step start state) : OneShot state :=
  (initial.inv.run run).oneShot

def reminder : Timer where
  user_id := "ann"
  parent_chat_id := "chat"
  timer_at := 0
  cancel_on := []
  status := .pending
  timer_claim_id := none
  timer_started_at := none
  timer_error := none

def dueReminder : State where
  timers := ⟨[("timer", reminder)], by decide⟩
  executions := []
  inserted := []
  next_claim := 0

def postponedReminder : State where
  timers := ⟨[("timer", { reminder.claim 5 0 with
    status := .pending, timer_claim_id := none, timer_started_at := none })], by decide⟩
  executions := [⟨"timer", some 0, .done⟩]
  inserted := []
  next_claim := 1

def firedReminder : State where
  timers := ⟨[("timer", { reminder.claim 9 1 with status := .completed })], by decide⟩
  executions := [⟨"timer", some 0, .done⟩, ⟨"timer", some 1, .done⟩]
  inserted := [⟨"chat", "timer", some 1⟩]
  next_claim := 2

theorem dueReminder_postponed : Steps.Run Step dueReminder postponedReminder := by
  have claim := Step.claim dueReminder 5 10
  have claimed_eq : claim_due_timers 5 10 dueReminder =
      { timers := ⟨[("timer", reminder.claim 5 0)], by decide⟩
        executions := [⟨"timer", some 0, .waiting⟩]
        inserted := []
        next_claim := 1 } := by
    simp [claim_due_timers, claimed, dueTimers, dueReminder, reminder]
    rfl
  rw [claimed_eq] at claim
  exact ((Relation.ReflTransGen.single claim).tail (Step.check _ 0 _ rfl rfl)).tail
    (Step.busy _ 0 ⟨"timer", some 0, .checked "chat"⟩ "chat" rfl rfl)

theorem postponedReminder_fired : Steps.Run Step postponedReminder firedReminder := by
  have claim := Step.claim postponedReminder 9 10
  have claimed_eq : claim_due_timers 9 10 postponedReminder =
      { timers := ⟨[("timer", reminder.claim 9 1)], by decide⟩
        executions := [⟨"timer", some 0, .done⟩, ⟨"timer", some 1, .waiting⟩]
        inserted := []
        next_claim := 2 } := by
    simp [claim_due_timers, claimed, dueTimers, postponedReminder, reminder, Timer.claim]
    rfl
  rw [claimed_eq] at claim
  exact ((Relation.ReflTransGen.single claim).tail (Step.check _ 1 _ rfl rfl)).tail
    (Step.complete _ 1 ⟨"timer", some 1, .checked "chat"⟩ "chat" rfl rfl)

theorem firedReminder_one_shot : firedReminder.inserted.length = 1 ∧ OneShot firedReminder := by
  have initial : Initial dueReminder := by
    refine ⟨?_, rfl, rfl⟩
    intro id timer claim found owned
    have member := Dict.mem_entries_iff.mpr found
    obtain rfl := (Prod.mk.inj (List.mem_singleton.mp member)).2
    cases owned
  exact ⟨rfl, timers_one_shot dueReminder initial firedReminder
    (dueReminder_postponed.trans postponedReminder_fired)⟩

end OpenWebui.Timers
