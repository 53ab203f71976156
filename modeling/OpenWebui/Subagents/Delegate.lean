import Mathlib.Data.Finset.Card
import OpenWebui.Base.Dict

/-! Delegation to sub-agents: how a call takes a slot, creates the chat and the child task, and
where the slot is given back. One step goes from one suspension of a coroutine to the next. -/

namespace OpenWebui.Subagents

/-- A configured limit: `-1` for none, and at least one slot otherwise. -/
structure Limit where
  value : Int
  valid : value = -1 ∨ 1 ≤ value

/-- A limit as `delegate` reads it from the configuration. -/
def Limit.read (configured : Option Int) : Limit :=
  let value := (configured.filter (fun number => decide (number ≠ 0))).getD 20
  if unlimited : value = -1 then ⟨value, .inl unlimited⟩
  else ⟨max 1 value, .inr (le_max_left 1 value)⟩

structure Limits where
  max_concurrent : Limit
  max_async : Limit

/-- Where a `delegate` call is suspended. -/
inductive Call
  | waiting
  | creating
  | registering
  | awaiting
  | returned
deriving DecidableEq

/-- The child task: not created, not started, inside `run_reserved`, in one of its exception
handlers, past its `finally`, or cancelled before its first step. -/
inductive Child
  | absent
  | scheduled
  | executing
  | failing
  | finished
  | unstarted
deriving DecidableEq

/-- A `delegate` call with its child task, and whether it has taken a slot. -/
structure Delegation where
  background : Bool
  limits : Limits
  call : Call
  child : Child
  slot : Bool

inductive Event
  | acquire
  | createChat (registers : Bool)
  | failChat
  | register
  | failRegister
  | finishCall
  | cancelCall
  | start
  | cancelUnstarted
  | raise
  | finish
deriving DecidableEq

inductive Effect
  | none
  | take
  | give

namespace Delegation

def dispatched (delegation : Delegation) : Call :=
  if delegation.background then .returned else .awaiting

def next (delegation : Delegation) : Event → Option (Delegation × Effect)
  | .acquire =>
    if delegation.call = .waiting then
      some ({ delegation with call := .creating, slot := true }, .take)
    else none
  -- without Redis, `create_task` does not suspend
  | .createChat registers =>
    if delegation.call = .creating then
      some ({ delegation with
        call := if registers then .registering else delegation.dispatched
        child := .scheduled }, .none)
    else none
  | .failChat =>
    if delegation.call = .creating then some ({ delegation with call := .returned }, .give)
    else none
  | .register =>
    if delegation.call = .registering then
      some ({ delegation with call := delegation.dispatched }, .none)
    else none
  | .failRegister =>
    if delegation.call = .registering then some ({ delegation with call := .returned }, .give)
    else none
  | .finishCall =>
    if delegation.call = .awaiting ∧ (delegation.child = .finished ∨ delegation.child = .unstarted)
    then some ({ delegation with call := .returned }, .none)
    else none
  -- `except Exception` does not catch a cancellation; one at the await of the child goes to it
  | .cancelCall =>
    if delegation.call = .waiting ∨ delegation.call = .creating ∨ delegation.call = .registering then
      some ({ delegation with call := .returned }, .none)
    else none
  | .start =>
    if delegation.child = .scheduled then some ({ delegation with child := .executing }, .none)
    else none
  -- the coroutine is closed before it enters its `try`
  | .cancelUnstarted =>
    if delegation.child = .scheduled then some ({ delegation with child := .unstarted }, .none)
    else none
  | .raise =>
    if delegation.child = .executing then some ({ delegation with child := .failing }, .none)
    else none
  | .finish =>
    if delegation.child = .executing ∨ delegation.child = .failing then
      some ({ delegation with child := .finished }, .give)
    else none

/-- The sub-agent is inside `run_reserved`. -/
def Executing (delegation : Delegation) : Prop :=
  delegation.child = .executing ∨ delegation.child = .failing

instance (delegation : Delegation) : Decidable delegation.Executing :=
  inferInstanceAs (Decidable (_ ∨ _))

/-- Neither the call nor its child goes on. -/
def Over (delegation : Delegation) : Prop :=
  delegation.call = .returned ∧ delegation.child ≠ .scheduled ∧ ¬ delegation.Executing

instance (delegation : Delegation) : Decidable delegation.Over :=
  inferInstanceAs (Decidable (_ ∧ _))

end Delegation

/-- The module state, the delegations, and every release in the order they were made. -/
structure System where
  background_active : Finset String
  foreground_semaphore : Option Nat
  delegations : Dict String Delegation
  released : List String

namespace System

def empty : System := ⟨∅, none, .empty, []⟩

/-- `_background_active.discard`, or `foreground_semaphore.release` where there is one. -/
def release (system : System) (delegation_id : String) (delegation : Delegation) : System :=
  if delegation.background then
    { system with
      background_active := system.background_active.erase delegation_id
      released := delegation_id :: system.released }
  else if delegation.slot then
    { system with
      foreground_semaphore := system.foreground_semaphore.map (fun value => value + 1)
      released := delegation_id :: system.released }
  else system

/-- `foreground_semaphore.acquire` goes on once the counter is positive. -/
def acquire (system : System) : Option System :=
  match system.foreground_semaphore with
  | some (value + 1) => some { system with foreground_semaphore := some value }
  | _ => none

def apply (system : System) (delegation_id : String) (delegation : Delegation) :
    Effect → Option System
  | .none => some system
  | .take => system.acquire
  | .give => some (system.release delegation_id delegation)

def enter (system : System) (delegation_id : String) (delegation : Delegation) : System :=
  { system with delegations := system.delegations.set delegation_id delegation }

/-- A `delegate` call under a new id, up to where it takes its slot or waits for one. -/
def delegate (system : System) (delegation_id : String) (background enabled : Bool)
    (limits : Limits) : Option System :=
  if delegation_id ∈ system.delegations.keys then none
  else if background then
    if enabled = false ∨ limits.max_async.value ≠ -1 ∧
        limits.max_async.value ≤ system.background_active.card then
      some system
    else
      some (enter { system with
        background_active := insert delegation_id system.background_active }
        delegation_id ⟨true, limits, .creating, .absent, true⟩)
  else if limits.max_concurrent.value = -1 then
    some (system.enter delegation_id ⟨false, limits, .creating, .absent, false⟩)
  else
    some (enter { system with
      foreground_semaphore :=
        some (system.foreground_semaphore.getD limits.max_concurrent.value.toNat) }
      delegation_id ⟨false, limits, .waiting, .absent, false⟩)

def step (system : System) (delegation_id : String) (event : Event) : Option System :=
  match system.delegations.get? delegation_id with
  | none => none
  | some delegation =>
    match delegation.next event with
    | none => none
    | some (later, effect) =>
      (system.apply delegation_id delegation effect).map (fun applied =>
        applied.enter delegation_id later)

end System

inductive Action
  | delegate (delegation_id : String) (background enabled : Bool) (limits : Limits)
  | step (delegation_id : String) (event : Event)

def System.act (system : System) : Action → Option System
  | .delegate delegation_id background enabled limits =>
    system.delegate delegation_id background enabled limits
  | .step delegation_id event => system.step delegation_id event

def System.run (system : System) (actions : List Action) : Option System :=
  actions.foldlM System.act system

def System.executing (system : System) (background : Bool) : Finset String :=
  system.delegations.keys.toFinset.filter (fun delegation_id =>
    (system.delegations.get? delegation_id).any (fun delegation =>
      decide (delegation.background = background ∧ delegation.Executing)))

theorem System.mem_executing {system : System} {background : Bool} {delegation_id : String} :
    delegation_id ∈ system.executing background ↔
      ∃ delegation, system.delegations.get? delegation_id = some delegation ∧
        delegation.background = background ∧ delegation.Executing := by
  simp only [executing, Finset.mem_filter, List.mem_toFinset, Option.any_eq_true,
    decide_eq_true_eq]
  exact ⟨fun both => both.2,
    fun found => ⟨found.elim (fun _ reads => Dict.mem_keys_of_get? reads.1), found⟩⟩

end OpenWebui.Subagents
