import Mathlib.Data.Finset.Card
import OpenWebui.Base.Dict

/-! The task registry in Redis: every pipeline and every single command is one step, and the
steps of the workers interleave freely. -/

namespace OpenWebui.Tasks

def named (id : Option String) : Option String := id.filter (fun name => decide (name ≠ ""))

/-- The hash under `REDIS_TASKS_KEY` and the sets under `REDIS_ITEM_TASKS_KEY`; a key that is
missing reads as the empty set. -/
structure Redis where
  hash : Dict String String
  sets : String → Finset String

namespace Redis

def empty : Redis := ⟨.empty, fun _ => ∅⟩

def sadd (redis : Redis) (item task_id : String) : Redis :=
  { redis with sets := Function.update redis.sets item (insert task_id (redis.sets item)) }

def srem (redis : Redis) (item task_id : String) : Redis :=
  { redis with sets := Function.update redis.sets item ((redis.sets item).erase task_id) }

def delete (redis : Redis) (item : String) : Redis :=
  { redis with sets := Function.update redis.sets item ∅ }

def scard (redis : Redis) (item : String) : Nat := (redis.sets item).card

/-- The pipeline of `redis_save_task`. -/
def save (redis : Redis) (task_id : String) (item_id : Option String) : Redis :=
  let hset := { redis with hash := redis.hash.set task_id (item_id.getD "") }
  match named item_id with
  | some item => hset.sadd item task_id
  | none => hset

/-- The pipeline of `redis_cleanup_task`. -/
def clear (redis : Redis) (task_id : String) (item_id : Option String) : Redis :=
  let hdel := { redis with hash := redis.hash.erase task_id }
  match named item_id with
  | some item => hdel.srem item task_id
  | none => hdel

end Redis

def list_tasks (redis : Redis) : List String := redis.hash.keys

def list_task_ids_by_item_id (redis : Redis) (id : String) : Finset String := redis.sets id

def has_active_tasks (redis : Redis) (chat_id : String) : Bool :=
  decide (0 < (list_task_ids_by_item_id redis chat_id).card)

/-- Who runs `redis_cleanup_task`: the done callback of the task, or `stop_task`. -/
inductive Caller
  | callback
  | stop
deriving DecidableEq

/-- An operation in progress, named by the step it takes next. -/
inductive Process
  | save (task_id : String) (id : Option String)
  | clear (caller : Caller) (task_id : String) (id : Option String)
  | count (caller : Caller) (task_id item : String)
  | delete (caller : Caller) (task_id item : String)
  | forget (task_id : String)
  | lookup (task_id : String)
  | publish (task_id : String) (id : Option String)
  | deliver (task_id : String)
deriving DecidableEq

/-- What follows `redis_cleanup_task`. -/
def Caller.next : Caller → String → List Process
  | .callback, task_id => [.forget task_id]
  | .stop, _ => []

/-- An asyncio task: the item it was created for, and whether it has ended. -/
structure Task where
  id : Option String
  done : Bool
deriving DecidableEq

/-- The tasks, the workers' own `tasks` dictionaries with the cancellations requested there, and
the operations in progress. -/
structure System where
  redis : Redis
  tasks : Dict String Task
  handles : Dict String Bool
  processes : List Process

def System.empty : System := ⟨.empty, .empty, .empty, []⟩

def Process.execute (system : System) : Process → System × List Process
  | .save task_id id => ({ system with redis := system.redis.save task_id id }, [])
  | .clear caller task_id id =>
    ({ system with redis := system.redis.clear task_id id },
      match named id with
      | some item => [.count caller task_id item]
      | none => caller.next task_id)
  | .count caller task_id item =>
    (system, if system.redis.scard item = 0 then [.delete caller task_id item]
      else caller.next task_id)
  | .delete caller task_id item =>
    ({ system with redis := system.redis.delete item }, caller.next task_id)
  | .forget task_id => ({ system with handles := system.handles.erase task_id }, [])
  | .lookup task_id => (system, [.publish task_id (system.redis.hash.get? task_id)])
  | .publish task_id id => (system, [.deliver task_id, .clear .stop task_id (named id)])
  -- the listener of the worker that has the task cancels it; when it ends is the task's affair
  | .deliver task_id =>
    ({ system with handles := system.handles.modify task_id (fun _ => true) }, [])

inductive Action
  | create (task_id : String) (id : Option String)
  | finish (task_id : String)
  | stop (task_id : String)
  | step (process : Process)
deriving DecidableEq

/-- `create_task` starts the task under a new id and goes on to register it. -/
def System.create (system : System) (task_id : String) (id : Option String) : Option System :=
  if task_id ∈ system.tasks.keys then none
  else some
    { system with
      tasks := system.tasks.set task_id ⟨id, false⟩
      handles := system.handles.set task_id false
      processes := .save task_id id :: system.processes }

def System.finish (system : System) (task_id : String) : Option System :=
  match system.tasks.get? task_id with
  | some ⟨id, false⟩ => some
    { system with
      tasks := system.tasks.set task_id ⟨id, true⟩
      processes := .clear .callback task_id id :: system.processes }
  | _ => none

def System.step (system : System) (process : Process) : Option System :=
  if process ∈ system.processes then
    let (executed, next) := process.execute system
    some { executed with processes := next ++ system.processes.erase process }
  else none

def System.act (system : System) : Action → Option System
  | .create task_id id => system.create task_id id
  | .finish task_id => system.finish task_id
  | .stop task_id => some { system with processes := .lookup task_id :: system.processes }
  | .step process => system.step process

def System.run (system : System) (actions : List Action) : Option System :=
  actions.foldlM System.act system

namespace Redis

variable (redis : Redis) (task_id : String) (item_id : Option String)

@[simp] theorem hash_save :
    (redis.save task_id item_id).hash = redis.hash.set task_id (item_id.getD "") := by
  cases item : named item_id <;> simp [save, item, sadd]

@[simp] theorem hash_clear : (redis.clear task_id item_id).hash = redis.hash.erase task_id := by
  cases item : named item_id <;> simp [clear, item, srem]

@[simp] theorem hash_delete (item : String) : (redis.delete item).hash = redis.hash := rfl

theorem mem_sets_save {other item : String} :
    other ∈ (redis.save task_id item_id).sets item ↔
      other ∈ redis.sets item ∨ other = task_id ∧ named item_id = some item := by
  cases target : named item_id with
  | none => simp [save, target]
  | some found =>
    by_cases same : item = found
    · subst same
      simp [save, target, sadd, or_comm]
    · simp [save, target, sadd, Function.update_of_ne same, Ne.symm same]

theorem mem_sets_clear {other item : String} :
    other ∈ (redis.clear task_id item_id).sets item ↔
      other ∈ redis.sets item ∧ ¬(other = task_id ∧ named item_id = some item) := by
  cases target : named item_id with
  | none => simp [clear, target]
  | some found =>
    by_cases same : item = found
    · subst same
      simp [clear, target, srem, and_comm]
    · simp [clear, target, srem, Function.update_of_ne same, Ne.symm same]

theorem mem_sets_delete {other item found : String} :
    other ∈ (redis.delete found).sets item ↔ other ∈ redis.sets item ∧ item ≠ found := by
  by_cases same : item = found
  · subst same
    simp [delete]
  · simp [delete, same]

end Redis

theorem has_active_tasks_iff {redis : Redis} {chat_id : String} :
    has_active_tasks redis chat_id = true ↔
      ∃ task_id, task_id ∈ list_task_ids_by_item_id redis chat_id := by
  rw [has_active_tasks, decide_eq_true_iff, Finset.card_pos]
  exact Iff.rfl

end OpenWebui.Tasks
