import OpenWebui.Base.Dict
import OpenWebui.Base.Runs

/-! One-shot timers: how they are claimed, cancelled and executed by any number of workers,
each database transaction as one step. -/

namespace OpenWebui.Timers

inductive Status where
  | pending
  | running
  | completed
  | cancelled
  | error
  deriving DecidableEq

/-- The events of the parent chat that may cancel a timer. -/
inductive CancelEvent where
  | read
  | user_message
  deriving DecidableEq

abbrev ClaimId := Nat

structure Timer where
  user_id : String
  parent_chat_id : String
  timer_at : Int
  cancel_on : List CancelEvent
  status : Status
  timer_claim_id : Option ClaimId
  timer_started_at : Option Int
  timer_error : Option String

/-- How far an execution has come: before the check of the status, after it with the parent chat
it has read, on its way to an error exit, and after its last transaction on the timer. -/
inductive Phase where
  | waiting
  | checked (parent_chat_id : String)
  | failing (timer_error : String)
  | done
  deriving DecidableEq

/-- A call of `execute_due_timer` by some worker. -/
structure Execution where
  timer_id : String
  claim_id : Option ClaimId
  phase : Phase

/-- A prompt in the parent chat, with the execution that has put it there. -/
structure Insertion where
  parent_chat_id : String
  timer_id : String
  claim_id : Option ClaimId
  deriving DecidableEq

structure State where
  timers : Dict String Timer
  executions : List Execution
  inserted : List Insertion
  next_claim : ClaimId

def dueTimers (timers : Dict String Timer) (now_ns : Int) (limit : Nat) : List String :=
  (((timers.entries.filter (fun row =>
    decide (row.2.status = .pending ∧ row.2.timer_at ≤ now_ns))).mergeSort (fun first second =>
      decide (first.2.timer_at ≤ second.2.timer_at))).take limit).map Prod.fst

def claimed (state : State) (now_ns : Int) (limit : Nat) : List (String × ClaimId) :=
  (dueTimers state.timers now_ns limit).mapIdx (fun place id => (id, state.next_claim + place))

def Timer.claim (timer : Timer) (now_ns : Int) (claim_id : ClaimId) : Timer :=
  { timer with
    status := .running
    timer_started_at := some now_ns
    timer_claim_id := some claim_id }

def claim_due_timers (now_ns : Int) (limit : Nat) (state : State) : State :=
  let claims := claimed state now_ns limit
  { state with
    timers := state.timers.mapValue (fun id timer =>
      match claims.lookup id with
      | some claim_id => timer.claim now_ns claim_id
      | none => timer)
    executions := state.executions ++ claims.map (fun claim =>
      { timer_id := claim.1, claim_id := some claim.2, phase := .waiting })
    next_claim := state.next_claim + claims.length }

def Timer.cancelledBy (timer : Timer) (parent_chat_id : String) (event : CancelEvent)
    (user_id : String) : Bool :=
  decide (timer.user_id = user_id ∧ timer.parent_chat_id = parent_chat_id ∧
    timer.status = .pending ∧ event ∈ timer.cancel_on)

def cancel_timers_for_chat (parent_chat_id : String) (event : CancelEvent) (user_id : String)
    (state : State) : State :=
  { state with
    timers := state.timers.mapValue (fun _ timer =>
      if timer.cancelledBy parent_chat_id event user_id then { timer with status := .cancelled }
      else timer) }

def State.setPhase (state : State) (place : Nat) (phase : Phase) : State :=
  { state with
    executions := state.executions.modify place (fun execution =>
      { execution with phase := phase }) }

def State.update (state : State) (timer_id : String) (change : Timer → Timer) : State :=
  { state with timers := state.timers.modify timer_id change }

def mayExecute (timer : Timer) (claim_id : Option ClaimId) : Bool :=
  decide (timer.status = .running) &&
    (match claim_id with
      | none => true
      | some claim_id => decide (timer.timer_claim_id = some claim_id))

def check (state : State) (place : Nat) (execution : Execution) : State :=
  state.setPhase place
    (match state.timers.get? execution.timer_id with
      | none => .done
      | some timer =>
        if mayExecute timer execution.claim_id then .checked timer.parent_chat_id else .done)

def timerErrors : List String :=
  ["parent chat no longer exists", "timer task message is missing", "timer user no longer exists",
    "model context is missing"]

def _set_timer_state (state : State) (timer_id : String) (status : Status) (timer_error : String) :
    State :=
  state.update timer_id (fun timer =>
    { timer with status := status, timer_error := some timer_error })

def putBack (state : State) (place : Nat) (execution : Execution) : State :=
  (state.update execution.timer_id (fun timer =>
    { timer with
      status := .pending
      timer_claim_id := none
      timer_started_at := none })).setPhase place .done

def complete (state : State) (place : Nat) (execution : Execution) (parent_chat_id : String) :
    State :=
  { (state.update execution.timer_id (fun timer => { timer with status := .completed })).setPhase
      place .done with
    inserted := state.inserted ++
      [⟨parent_chat_id, execution.timer_id, execution.claim_id⟩] }

/-- One transaction of some worker. The answers of other tables (the parent chat, the prompt,
the user, the model, the active tasks) may be any at every step; the locks of a process only
rule interleavings out. -/
inductive Step : State → State → Prop where
  | claim (state : State) (now_ns : Int) (limit : Nat) :
      Step state (claim_due_timers now_ns limit state)
  | cancel (state : State) (parent_chat_id : String) (event : CancelEvent) (user_id : String) :
      Step state (cancel_timers_for_chat parent_chat_id event user_id state)
  | check (state : State) (place : Nat) (execution : Execution)
      (found : state.executions[place]? = some execution)
      (waiting : execution.phase = .waiting) : Step state (check state place execution)
  | missing (state : State) (place : Nat) (execution : Execution) (timer_error : String)
      (parent_chat_id : String) (found : state.executions[place]? = some execution)
      (checked : execution.phase = .checked parent_chat_id)
      (known : timer_error ∈ timerErrors) :
      Step state (state.setPhase place (.failing timer_error))
  | fail (state : State) (place : Nat) (execution : Execution) (timer_error : String)
      (found : state.executions[place]? = some execution)
      (failing : execution.phase = .failing timer_error) :
      Step state ((_set_timer_state state execution.timer_id .error timer_error).setPhase place
        .done)
  | busy (state : State) (place : Nat) (execution : Execution) (parent_chat_id : String)
      (found : state.executions[place]? = some execution)
      (checked : execution.phase = .checked parent_chat_id) :
      Step state (putBack state place execution)
  | complete (state : State) (place : Nat) (execution : Execution) (parent_chat_id : String)
      (found : state.executions[place]? = some execution)
      (checked : execution.phase = .checked parent_chat_id) :
      Step state (complete state place execution parent_chat_id)
  | stop (state : State) (place : Nat) : Step state (state.setPhase place .done)

end OpenWebui.Timers
