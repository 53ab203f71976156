import OpenWebui.Base.Runs
import OpenWebui.Tasks.Registry

/-! The registry at rest: between operations it lists exactly the running tasks, as long as no
cleanup overtakes a registration or the end of its task. -/

namespace OpenWebui.Tasks

namespace System

def Running (system : System) (task_id : String) : Prop :=
  ∃ task, system.tasks.get? task_id = some task ∧ task.done = false

/-- A running task of an item. -/
def RunningFor (system : System) (item task_id : String) : Prop :=
  ∃ task, system.tasks.get? task_id = some task ∧ task.done = false ∧ named task.id = some item

/-- No operation is in progress; a command may still be on its way to the listeners. -/
def AtRest (system : System) : Prop :=
  ∀ process ∈ system.processes, ∃ task_id, process = .deliver task_id

/-- What the registry answers is what runs. -/
structure Exact (system : System) : Prop where
  listed : ∀ task_id, task_id ∈ list_tasks system.redis ↔ system.Running task_id
  itemListed : ∀ item task_id, task_id ∈ list_task_ids_by_item_id system.redis item ↔
    system.RunningFor item task_id
  active : ∀ chat_id, has_active_tasks system.redis chat_id = true ↔
    ∃ task_id, system.RunningFor chat_id task_id

/-- No cleanup overtakes what it cleans up after. The callback of a task clears its entries after
they were saved, `stop_task` clears them after the task has ended, and a set is deleted with no
running task in it. -/
def Orderly (system : System) : Action → Prop
  | .step (.clear .callback task_id _) => ∀ id, .save task_id id ∉ system.processes
  | .step (.clear .stop task_id _) => ¬ system.Running task_id
  | .step (.delete _ _ item) => ∀ task_id ∈ system.redis.sets item, ¬ system.Running task_id
  | _ => True

/-- The entries of a task are due: it runs, or its callback has yet to clear them. -/
def Due (system : System) (task_id : String) (task : Task) : Prop :=
  task.done = false ∨ .clear .callback task_id task.id ∈ system.processes

/-- What every step of an orderly run keeps. -/
structure Registered (system : System) : Prop where
  savedOnce : ∀ task_id id, system.processes.count (.save task_id id) ≤ 1
  saving : ∀ task_id id, .save task_id id ∈ system.processes →
    ∃ task, system.tasks.get? task_id = some task ∧ task.id = id ∧ system.Due task_id task ∧
      task_id ∉ system.redis.hash.keys ∧ ∀ item, task_id ∉ system.redis.sets item
  clearing : ∀ task_id id, .clear .callback task_id id ∈ system.processes →
    ∃ task, system.tasks.get? task_id = some task ∧ task.id = id ∧ task.done = true
  registered : ∀ task_id task, system.tasks.get? task_id = some task → task.done = false →
    .save task_id task.id ∉ system.processes →
      task_id ∈ system.redis.hash.keys ∧
        ∀ item, named task.id = some item → task_id ∈ system.redis.sets item
  hashed : ∀ task_id ∈ system.redis.hash.keys,
    ∃ task, system.tasks.get? task_id = some task ∧ system.Due task_id task
  grouped : ∀ item, ∀ task_id ∈ system.redis.sets item,
    ∃ task, system.tasks.get? task_id = some task ∧ named task.id = some item ∧
      system.Due task_id task

theorem Registered.exact {system : System} (registered : system.Registered)
    (rest : system.AtRest) : system.Exact := by
  have runs : ∀ {task_id task}, system.Due task_id task → task.done = false := by
    intro task_id task due
    rcases due with running | clears
    · exact running
    · obtain ⟨_, equal⟩ := rest _ clears
      cases equal
  have entries : ∀ {task_id task}, system.tasks.get? task_id = some task → task.done = false →
      task_id ∈ system.redis.hash.keys ∧
        ∀ item, named task.id = some item → task_id ∈ system.redis.sets item :=
    fun found running => registered.registered _ _ found running
      (fun saves => (rest _ saves).elim (fun _ equal => by cases equal))
  have itemListed : ∀ item task_id, task_id ∈ list_task_ids_by_item_id system.redis item ↔
      system.RunningFor item task_id := by
    intro item task_id
    constructor
    · intro member
      obtain ⟨task, found, belongs, due⟩ := registered.grouped item task_id member
      exact ⟨task, found, runs due, belongs⟩
    · rintro ⟨task, found, running, belongs⟩
      exact (entries found running).2 item belongs
  refine ⟨fun task_id => ⟨?_, ?_⟩, itemListed, fun chat_id => ?_⟩
  · intro member
    obtain ⟨task, found, due⟩ := registered.hashed task_id member
    exact ⟨task, found, runs due⟩
  · rintro ⟨task, found, running⟩
    exact (entries found running).1
  · rw [has_active_tasks_iff]
    exact exists_congr (itemListed chat_id)

theorem registered_empty : System.empty.Registered where
  savedOnce := fun _ _ => Nat.zero_le 1
  saving := fun _ _ pending => by cases pending
  clearing := fun _ _ pending => by cases pending
  registered := fun _ _ found => by cases found
  hashed := fun _ member => by cases member
  grouped := fun _ _ member => absurd member (Finset.notMem_empty _)

theorem Registered.trimmed {old new : System} (registered : old.Registered)
    (tasks : new.tasks = old.tasks)
    (saves : ∀ task_id id, new.processes.count (.save task_id id) =
      old.processes.count (.save task_id id))
    (clears : ∀ task_id id, .clear .callback task_id id ∈ new.processes ↔
      .clear .callback task_id id ∈ old.processes)
    (hash : ∀ task_id ∈ new.redis.hash.keys, task_id ∈ old.redis.hash.keys)
    (sets : ∀ item, ∀ task_id ∈ new.redis.sets item, task_id ∈ old.redis.sets item)
    (keptHash : ∀ task_id ∈ old.redis.hash.keys, old.Running task_id →
      task_id ∈ new.redis.hash.keys)
    (keptSets : ∀ item, ∀ task_id ∈ old.redis.sets item, old.Running task_id →
      task_id ∈ new.redis.sets item) : new.Registered := by
  have due : ∀ {task_id task}, old.Due task_id task → new.Due task_id task :=
    fun owed => owed.imp_right (clears _ _).mpr
  have saved : ∀ {task_id id}, .save task_id id ∈ new.processes ↔
      .save task_id id ∈ old.processes := by
    intro task_id id
    rw [← List.count_pos_iff, ← List.count_pos_iff, saves]
  constructor
  case savedOnce =>
    intro task_id id
    rw [saves]
    exact registered.savedOnce task_id id
  case saving =>
    intro task_id id pending
    obtain ⟨task, found, same, owed, unhashed, ungrouped⟩ :=
      registered.saving task_id id (saved.mp pending)
    exact ⟨task, tasks ▸ found, same, due owed, fun member => unhashed (hash _ member),
      fun item member => ungrouped item (sets _ _ member)⟩
  case clearing =>
    intro task_id id pending
    rw [tasks]
    exact registered.clearing task_id id ((clears _ _).mp pending)
  case registered =>
    intro task_id task found running unsaved
    rw [tasks] at found
    obtain ⟨hashed, grouped⟩ :=
      registered.registered task_id task found running (fun pending => unsaved (saved.mpr pending))
    have runs : old.Running task_id := ⟨task, found, running⟩
    exact ⟨keptHash _ hashed runs, fun item belongs => keptSets _ _ (grouped item belongs) runs⟩
  case hashed =>
    intro task_id member
    obtain ⟨task, found, owed⟩ := registered.hashed task_id (hash _ member)
    exact ⟨task, tasks ▸ found, due owed⟩
  case grouped =>
    intro item task_id member
    obtain ⟨task, found, belongs, owed⟩ := registered.grouped item task_id (sets _ _ member)
    exact ⟨task, tasks ▸ found, belongs, due owed⟩

/-- Neither a registration nor the cleanup of a callback. -/
def Quiet : Process → Prop
  | .save _ _ => False
  | .clear .callback _ _ => False
  | _ => True

theorem quiet_execute (system : System) (process : Process) :
    ∀ next ∈ (process.execute system).2, Quiet next := by
  have after : ∀ (caller : Caller) task_id, ∀ next ∈ caller.next task_id, Quiet next := by
    intro caller task_id next member
    cases caller with
    | callback =>
      obtain rfl := List.mem_singleton.mp member
      trivial
    | stop => cases member
  intro next member
  cases process with
  | save task_id id => cases member
  | clear caller task_id id =>
    cases item : named id with
    | none =>
      simp only [Process.execute, item] at member
      exact after caller task_id next member
    | some found =>
      simp only [Process.execute, item, List.mem_singleton] at member
      subst member
      trivial
  | count caller task_id item =>
    simp only [Process.execute] at member
    split at member
    · obtain rfl := List.mem_singleton.mp member
      trivial
    · exact after caller task_id next member
  | delete caller task_id item => exact after caller task_id next member
  | forget task_id => cases member
  | lookup task_id =>
    obtain rfl := List.mem_singleton.mp member
    trivial
  | publish task_id id =>
    rcases List.mem_cons.mp member with first | second
    · subst first
      trivial
    · obtain rfl := List.mem_singleton.mp second
      trivial
  | deliver task_id => cases member

theorem count_loud {pending next : List Process} {process loud : Process} (stands : ¬ Quiet loud)
    (leaves : Quiet process) (comes : ∀ later ∈ next, Quiet later) :
    (next ++ pending.erase process).count loud = pending.count loud := by
  have apart : process ≠ loud := fun same => stands (same ▸ leaves)
  have absent : loud ∉ next := fun member => stands (comes loud member)
  rw [List.count_append, List.count_eq_zero.mpr absent, List.count_erase_of_ne apart.symm,
    Nat.zero_add]

theorem mem_loud {pending next : List Process} {process loud : Process} (stands : ¬ Quiet loud)
    (leaves : Quiet process) (comes : ∀ later ∈ next, Quiet later) :
    loud ∈ next ++ pending.erase process ↔ loud ∈ pending := by
  rw [← List.count_pos_iff, ← List.count_pos_iff, count_loud stands leaves comes]

theorem step_eq_some {system next : System} {process : Process}
    (stepped : system.step process = some next) :
    process ∈ system.processes ∧
      next = { (process.execute system).1 with
        processes := (process.execute system).2 ++ system.processes.erase process } := by
  unfold step at stepped
  split at stepped
  · exact ⟨‹_›, (Option.some.inj stepped).symm⟩
  · cases stepped

theorem Registered.quiet_step {system : System} {process : Process}
    (registered : system.Registered) (quiet : Quiet process)
    (orderly : system.Orderly (.step process)) :
    Registered { (process.execute system).1 with
      processes := (process.execute system).2 ++ system.processes.erase process } := by
  have next := quiet_execute system process
  have saves : ∀ task_id id, ((process.execute system).2 ++ system.processes.erase process).count
      (.save task_id id) = system.processes.count (.save task_id id) :=
    fun task_id id => count_loud (fun loud => loud) quiet next
  have clears : ∀ task_id id, .clear .callback task_id id ∈
      (process.execute system).2 ++ system.processes.erase process ↔
        .clear .callback task_id id ∈ system.processes :=
    fun task_id id => mem_loud (fun loud => loud) quiet next
  -- the operations that leave the hash and the sets alone
  have still : ∀ {executed : System}, executed.tasks = system.tasks →
      executed.redis = system.redis → Registered { executed with
        processes := (process.execute system).2 ++ system.processes.erase process } := by
    intro executed tasks redis
    refine registered.trimmed tasks saves clears ?_ ?_ ?_ ?_ <;> dsimp only <;> rw [redis]
    · exact fun _ member => member
    · exact fun _ _ member => member
    · exact fun _ member _ => member
    · exact fun _ _ member _ => member
  cases process with
  | save task_id id => exact absurd quiet (fun loud => loud)
  | clear caller task_id id =>
    cases caller with
    | callback => exact absurd quiet (fun loud => loud)
    | stop =>
      have ended : ¬ system.Running task_id := orderly
      refine registered.trimmed rfl saves clears ?_ ?_ ?_ ?_ <;>
        simp only [Process.execute, Redis.hash_clear, Dict.mem_keys_erase, Redis.mem_sets_clear]
      · exact fun _ member => member.2
      · exact fun _ _ member => member.1
      · exact fun other member runs => ⟨fun same => ended (same ▸ runs), member⟩
      · exact fun _ other member runs => ⟨member, fun same => ended (same.1 ▸ runs)⟩
  | count caller task_id item => exact still rfl rfl
  | delete caller task_id item =>
    have unused : ∀ member ∈ system.redis.sets item, ¬ system.Running member := orderly
    refine registered.trimmed rfl saves clears ?_ ?_ ?_ ?_ <;>
      simp only [Process.execute, Redis.hash_delete, Redis.mem_sets_delete]
    · exact fun _ member => member
    · exact fun _ _ member => member.1
    · exact fun _ member _ => member
    · exact fun _ other member runs => ⟨member, fun same => unused other (same ▸ member) runs⟩
  | forget task_id => exact still rfl rfl
  | lookup task_id => exact still rfl rfl
  | publish task_id id => exact still rfl rfl
  | deliver task_id => exact still rfl rfl

theorem Registered.save_step {system : System} {task_id : String} {id : Option String}
    (registered : system.Registered) (pending : .save task_id id ∈ system.processes) :
    Registered { system with
      redis := system.redis.save task_id id
      processes := system.processes.erase (.save task_id id) } := by
  obtain ⟨task, found, same, owed, _⟩ := registered.saving task_id id pending
  subst same
  have clears : ∀ {other id}, .clear .callback other id ∈
      system.processes.erase (.save task_id task.id) ↔
        .clear .callback other id ∈ system.processes :=
    fun {_ _} => List.mem_erase_of_ne (fun equal => by cases equal)
  have due : ∀ {other entry}, system.Due other entry → Due { system with
      redis := system.redis.save task_id task.id
      processes := system.processes.erase (.save task_id task.id) } other entry :=
    fun owed => owed.imp_right clears.mpr
  have once : ∀ {id}, .save task_id id ∉ system.processes.erase (.save task_id task.id) := by
    intro id again
    obtain ⟨entry, known, matching, _⟩ := registered.saving _ _ (List.mem_of_mem_erase again)
    obtain rfl := Option.some.inj (known.symm.trans found)
    subst matching
    have twice := List.count_pos_iff.mpr again
    rw [List.count_erase_self] at twice
    have single := registered.savedOnce task_id entry.id
    omega
  constructor
  case savedOnce =>
    intro other id
    exact (List.Sublist.count_le _ List.erase_sublist).trans (registered.savedOnce other id)
  case saving =>
    intro other id waits
    have apart : other ≠ task_id := fun same => once (same ▸ waits)
    obtain ⟨entry, known, matching, owes, unhashed, ungrouped⟩ :=
      registered.saving other id (List.mem_of_mem_erase waits)
    refine ⟨entry, known, matching, due owes, ?_, fun item => ?_⟩
    · simpa [apart] using unhashed
    · simpa [Redis.mem_sets_save, apart] using ungrouped item
  case clearing =>
    intro other id waits
    exact registered.clearing other id (clears.mp waits)
  case registered =>
    intro other entry known running unsaved
    by_cases this : other = task_id
    · subst this
      obtain rfl := Option.some.inj (known.symm.trans found)
      exact ⟨by simp, fun item belongs => (Redis.mem_sets_save ..).mpr (.inr ⟨rfl, belongs⟩)⟩
    · have waits : Process.save other entry.id ∉ system.processes := by
        intro member
        exact unsaved ((List.mem_erase_of_ne (by simp [this])).mpr member)
      obtain ⟨hashed, grouped⟩ := registered.registered other entry known running waits
      refine ⟨by simp [hashed], fun item belongs => ?_⟩
      exact (Redis.mem_sets_save ..).mpr (.inl (grouped item belongs))
  case hashed =>
    intro other member
    simp only [Redis.hash_save, Dict.mem_keys_set] at member
    rcases member with rfl | member
    · exact ⟨task, found, due owed⟩
    · obtain ⟨entry, known, owes⟩ := registered.hashed other member
      exact ⟨entry, known, due owes⟩
  case grouped =>
    intro item other member
    rcases (Redis.mem_sets_save ..).mp member with member | ⟨rfl, belongs⟩
    · obtain ⟨entry, known, belongs, owes⟩ := registered.grouped item other member
      exact ⟨entry, known, belongs, due owes⟩
    · exact ⟨task, found, belongs, due owed⟩

theorem Registered.callback_step {system : System} {task_id : String} {id : Option String}
    {next : List Process} (registered : system.Registered)
    (pending : .clear .callback task_id id ∈ system.processes)
    (saved : ∀ id, .save task_id id ∉ system.processes) (quiet : ∀ later ∈ next, Quiet later) :
    Registered { system with
      redis := system.redis.clear task_id id
      processes := next ++ system.processes.erase (.clear .callback task_id id) } := by
  obtain ⟨task, found, same, ended⟩ := registered.clearing task_id id pending
  subst same
  have saves : ∀ {other id}, .save other id ∈
      next ++ system.processes.erase (.clear .callback task_id task.id) →
        .save other id ∈ system.processes := by
    intro other id member
    rcases List.mem_append.mp member with new | old
    · exact absurd (quiet _ new) (fun loud => loud)
    · exact List.mem_of_mem_erase old
  have clears : ∀ {other id}, .clear .callback other id ∈
      next ++ system.processes.erase (.clear .callback task_id task.id) →
        .clear .callback other id ∈ system.processes := by
    intro other id member
    rcases List.mem_append.mp member with new | old
    · exact absurd (quiet _ new) (fun loud => loud)
    · exact List.mem_of_mem_erase old
  have due : ∀ {other entry}, other ≠ task_id → system.Due other entry → Due { system with
      redis := system.redis.clear task_id task.id
      processes := next ++ system.processes.erase (.clear .callback task_id task.id) }
        other entry := by
    intro other entry apart owed
    refine owed.imp_right (fun member => List.mem_append_right _ ?_)
    exact (List.mem_erase_of_ne (by simp [apart])).mpr member
  constructor
  case savedOnce =>
    intro other id
    have absent : Process.save other id ∉ next := fun member => quiet _ member
    rw [List.count_append, List.count_eq_zero.mpr absent, Nat.zero_add]
    exact (List.Sublist.count_le _ List.erase_sublist).trans (registered.savedOnce other id)
  case saving =>
    intro other id waits
    have apart : other ≠ task_id := fun same => saved id (same ▸ saves waits)
    obtain ⟨entry, known, matching, owes, unhashed, ungrouped⟩ :=
      registered.saving other id (saves waits)
    refine ⟨entry, known, matching, due apart owes, ?_, fun item member => ?_⟩
    · simpa [apart] using unhashed
    · exact ungrouped item ((Redis.mem_sets_clear ..).mp member).1
  case clearing =>
    intro other id waits
    exact registered.clearing other id (clears waits)
  case registered =>
    intro other entry known running unsaved
    have apart : other ≠ task_id := by
      rintro rfl
      obtain rfl := Option.some.inj (known.symm.trans found)
      exact absurd running (by simp [ended])
    have waits : Process.save other entry.id ∉ system.processes := by
      intro member
      refine unsaved (List.mem_append_right _ ?_)
      exact (List.mem_erase_of_ne (by simp)).mpr member
    obtain ⟨hashed, grouped⟩ := registered.registered other entry known running waits
    refine ⟨by simp [hashed, apart], fun item belongs => ?_⟩
    exact (Redis.mem_sets_clear ..).mpr ⟨grouped item belongs, fun same => apart same.1⟩
  case hashed =>
    intro other member
    simp only [Redis.hash_clear, Dict.mem_keys_erase] at member
    obtain ⟨entry, known, owes⟩ := registered.hashed other member.2
    exact ⟨entry, known, due member.1 owes⟩
  case grouped =>
    intro item other member
    obtain ⟨old, kept⟩ := (Redis.mem_sets_clear ..).mp member
    obtain ⟨entry, known, belongs, owes⟩ := registered.grouped item other old
    have apart : other ≠ task_id := by
      rintro rfl
      obtain rfl := Option.some.inj (known.symm.trans found)
      exact kept ⟨rfl, belongs⟩
    exact ⟨entry, known, belongs, due apart owes⟩

theorem Registered.create_step {old new : System} {task_id : String} {id : Option String}
    (registered : old.Registered) (created : old.create task_id id = some new) :
    new.Registered := by
  unfold create at created
  split at created
  · cases created
  rename_i fresh
  obtain rfl := Option.some.inj created
  have unknown : old.tasks.get? task_id = none := Dict.get?_eq_none.mpr fresh
  have apart : ∀ {other task}, old.tasks.get? other = some task → task_id ≠ other := by
    rintro other task found rfl
    cases unknown.symm.trans found
  have due : ∀ {other task}, old.Due other task → Due { old with
      tasks := old.tasks.set task_id ⟨id, false⟩
      handles := old.handles.set task_id false
      processes := .save task_id id :: old.processes } other task :=
    fun owed => owed.imp_right (List.mem_cons_of_mem _)
  constructor
  case savedOnce =>
    intro other saved
    rw [List.count_cons]
    split
    · rename_i same
      obtain ⟨rfl, rfl⟩ : task_id = other ∧ id = saved := by simpa using same
      have absent : Process.save task_id id ∉ old.processes := by
        intro waits
        obtain ⟨task, found, _⟩ := registered.saving task_id id waits
        exact apart found rfl
      rw [List.count_eq_zero.mpr absent]
    · exact registered.savedOnce other saved
  case saving =>
    intro other saved waits
    rcases List.mem_cons.mp waits with equal | waits
    · obtain ⟨rfl, rfl⟩ : other = task_id ∧ saved = id := by simpa using equal
      refine ⟨⟨saved, false⟩, by simp, rfl, .inl rfl, fun member => ?_, fun item member => ?_⟩
      · obtain ⟨task, found, _⟩ := registered.hashed other member
        exact apart found rfl
      · obtain ⟨task, found, _⟩ := registered.grouped item other member
        exact apart found rfl
    · obtain ⟨task, found, same, owed, absent⟩ := registered.saving other saved waits
      exact ⟨task, by simp [apart found, found], same, due owed, absent⟩
  case clearing =>
    intro other cleared waits
    obtain ⟨task, found, ended⟩ :=
      registered.clearing other cleared ((List.mem_cons.mp waits).resolve_left (by simp))
    exact ⟨task, by simp [apart found, found], ended⟩
  case registered =>
    intro other task found running unsaved
    rw [Dict.get?_set] at found
    split at found
    · rename_i same
      obtain rfl := Option.some.inj found
      exact absurd List.mem_cons_self (same ▸ unsaved)
    · exact registered.registered other task found running
        (fun waits => unsaved (List.mem_cons_of_mem _ waits))
  case hashed =>
    intro other member
    obtain ⟨task, found, owed⟩ := registered.hashed other member
    exact ⟨task, by simp [apart found, found], due owed⟩
  case grouped =>
    intro item other member
    obtain ⟨task, found, belongs, owed⟩ := registered.grouped item other member
    exact ⟨task, by simp [apart found, found], belongs, due owed⟩

theorem Registered.finish_step {old new : System} {task_id : String}
    (registered : old.Registered) (finished : old.finish task_id = some new) : new.Registered := by
  unfold finish at finished
  split at finished
  case h_2 => cases finished
  rename_i id known
  obtain rfl := Option.some.inj finished
  -- the task as it was read before is the ended one afterwards
  have reads : ∀ {other task}, old.tasks.get? other = some task →
      ∃ later, (old.tasks.set task_id ⟨id, true⟩).get? other = some later ∧ later.id = task.id ∧
        (old.Due other task → Due { old with
          tasks := old.tasks.set task_id ⟨id, true⟩
          processes := .clear .callback task_id id :: old.processes } other later) := by
    intro other task found
    by_cases same : task_id = other
    · subst same
      obtain rfl := Option.some.inj (known.symm.trans found)
      exact ⟨⟨id, true⟩, by simp, rfl, fun _ => .inr List.mem_cons_self⟩
    · exact ⟨task, by simp [same, found], rfl,
        fun owed => owed.imp_right (List.mem_cons_of_mem _)⟩
  constructor
  case savedOnce =>
    intro other saved
    rw [List.count_cons_of_ne (by simp)]
    exact registered.savedOnce other saved
  case saving =>
    intro other saved waits
    obtain ⟨task, found, same, owed, absent⟩ :=
      registered.saving other saved ((List.mem_cons.mp waits).resolve_left (by simp))
    obtain ⟨later, reads, keeps, due⟩ := reads found
    exact ⟨later, reads, keeps.trans same, due owed, absent⟩
  case clearing =>
    intro other cleared waits
    rcases List.mem_cons.mp waits with equal | waits
    · obtain ⟨rfl, rfl⟩ : other = task_id ∧ cleared = id := by simpa using equal
      exact ⟨⟨cleared, true⟩, by simp, rfl, rfl⟩
    · obtain ⟨task, found, same, ended⟩ := registered.clearing other cleared waits
      have apart : task_id ≠ other := by
        rintro rfl
        obtain rfl := Option.some.inj (known.symm.trans found)
        cases ended
      exact ⟨task, by simp [apart, found], same, ended⟩
  case registered =>
    intro other task found running unsaved
    rw [Dict.get?_set] at found
    split at found
    · obtain rfl := Option.some.inj found
      cases running
    · exact registered.registered other task found running
        (fun waits => unsaved (List.mem_cons_of_mem _ waits))
  case hashed =>
    intro other member
    obtain ⟨task, found, owed⟩ := registered.hashed other member
    obtain ⟨later, reads, _, due⟩ := reads found
    exact ⟨later, reads, due owed⟩
  case grouped =>
    intro item other member
    obtain ⟨task, found, belongs, owed⟩ := registered.grouped item other member
    obtain ⟨later, reads, keeps, due⟩ := reads found
    exact ⟨later, reads, keeps ▸ belongs, due owed⟩

theorem Registered.act {old new : System} {action : Action} (registered : old.Registered)
    (orderly : old.Orderly action) (acted : old.act action = some new) : new.Registered := by
  cases action with
  | create task_id id => exact registered.create_step acted
  | finish task_id => exact registered.finish_step acted
  | stop task_id =>
    obtain rfl := Option.some.inj acted
    refine registered.trimmed rfl ?_ ?_ ?_ ?_ ?_ ?_
    · exact fun _ _ => List.count_cons_of_ne (by simp)
    · exact fun _ _ => by simp
    · exact fun _ member => member
    · exact fun _ _ member => member
    · exact fun _ member _ => member
    · exact fun _ _ member _ => member
  | step process =>
    obtain ⟨pending, rfl⟩ := step_eq_some acted
    cases process with
    | save task_id id => exact registered.save_step pending
    | clear caller task_id id =>
      cases caller with
      | callback => exact registered.callback_step pending orderly (quiet_execute old _)
      | stop => exact registered.quiet_step trivial orderly
    | count caller task_id item => exact registered.quiet_step trivial orderly
    | delete caller task_id item => exact registered.quiet_step trivial orderly
    | forget task_id => exact registered.quiet_step trivial orderly
    | lookup task_id => exact registered.quiet_step trivial orderly
    | publish task_id id => exact registered.quiet_step trivial orderly
    | deliver task_id => exact registered.quiet_step trivial orderly

/-- The step is orderly in the state the earlier steps lead to. -/
def OrderlyAfter (earlier : List Action) (action : Action) : Prop :=
  ∀ system, empty.run earlier = some system → system.Orderly action

theorem registered_after {actions : List Action} {system : System}
    (ran : empty.run actions = some system) (orderly : Runs.Always OrderlyAfter actions) :
    system.Registered :=
  Runs.foldlM_invariant Registered
    (fun _ _ _ registered orderly acted => registered.act orderly acted) registered_empty orderly ran

/-- Whatever the workers interleave, an orderly run that is at rest lists exactly the running
tasks. -/
theorem registry_exact_at_rest {actions : List Action} {system : System}
    (ran : empty.run actions = some system) (orderly : Runs.Always OrderlyAfter actions)
    (rest : system.AtRest) : system.Exact :=
  (registered_after ran orderly).exact rest

end System

/-- What a run leaves: the operations in progress, and for one task and one item what the registry
answers and whether the task has ended. -/
def leaves (actions : List Action) (task_id item : String) :
    Option (List Process × Bool × Bool × Option Task) :=
  (System.empty.run actions).map (fun system =>
    (system.processes, decide (task_id ∈ list_tasks system.redis),
      has_active_tasks system.redis item, system.tasks.get? task_id))

def phantomActions : List Action :=
  [.create "a" (some "chat"), .finish "a", .step (.clear .callback "a" (some "chat")),
    .step (.count .callback "a" "chat"), .step (.delete .callback "a" "chat"),
    .step (.forget "a"), .step (.save "a" (some "chat"))]

def lostActions : List Action :=
  [.create "a" (some "chat"), .step (.save "a" (some "chat")), .finish "a",
    .step (.clear .callback "a" (some "chat")), .step (.count .callback "a" "chat"),
    .create "b" (some "chat"), .step (.save "b" (some "chat")),
    .step (.delete .callback "a" "chat"), .step (.forget "a")]

/-- At rest the task that ended is listed for ever, and the task that lost its entry runs
unseen. -/
theorem registry_not_exact_at_rest :
    (∃ system, System.empty.run phantomActions = some system ∧ system.processes = [] ∧
      ¬ system.Running "a" ∧ has_active_tasks system.redis "chat" = true ∧ ¬ system.Exact) ∧
    ∃ system, System.empty.run lostActions = some system ∧ system.processes = [] ∧
      system.RunningFor "chat" "b" ∧ has_active_tasks system.redis "chat" = false ∧
        ¬ system.Exact := by
  constructor
  · have left : leaves phantomActions "a" "chat" =
        some ([], true, true, some ⟨some "chat", true⟩) := by decide
    obtain ⟨system, ran, reads⟩ := Option.map_eq_some_iff.mp left
    simp only [Prod.mk.injEq, decide_eq_true_eq] at reads
    obtain ⟨rest, listed, active, found⟩ := reads
    have ended : ¬ system.Running "a" := by
      rintro ⟨task, known, running⟩
      obtain rfl := Option.some.inj (known.symm.trans found)
      cases running
    exact ⟨system, ran, rest, ended, active, fun exact => ended ((exact.listed "a").mp listed)⟩
  · have left : leaves lostActions "b" "chat" =
        some ([], true, false, some ⟨some "chat", false⟩) := by decide
    obtain ⟨system, ran, reads⟩ := Option.map_eq_some_iff.mp left
    simp only [Prod.mk.injEq, decide_eq_true_eq] at reads
    obtain ⟨rest, _, idle, found⟩ := reads
    have runs : system.RunningFor "chat" "b" := ⟨_, found, rfl, by decide⟩
    refine ⟨system, ran, rest, runs, idle, fun exact => ?_⟩
    exact absurd ((exact.active "chat").mpr ⟨"b", runs⟩) (by simp [idle])

def orderlyActions : List Action :=
  [.create "a" (some "chat"), .create "b" (some "chat"), .step (.save "a" (some "chat")),
    .step (.save "b" (some "chat")), .stop "a", .step (.lookup "a"),
    .step (.publish "a" (some "chat")), .step (.deliver "a"), .finish "a",
    .step (.clear .callback "a" (some "chat")), .step (.count .callback "a" "chat"),
    .step (.clear .stop "a" (some "chat")), .step (.forget "a"), .step (.count .stop "a" "chat")]

/-- The second task is still listed, and alone. -/
theorem orderlyActions_exact : ∃ system, System.empty.run orderlyActions = some system ∧
    system.RunningFor "chat" "b" ∧ system.Exact := by
  have left : leaves orderlyActions "b" "chat" =
      some ([], true, true, some ⟨some "chat", false⟩) := by decide
  obtain ⟨system, ran, reads⟩ := Option.map_eq_some_iff.mp left
  simp only [Prod.mk.injEq, decide_eq_true_eq] at reads
  obtain ⟨rest, _, _, found⟩ := reads
  refine ⟨system, ran, ⟨_, found, rfl, by decide⟩, ?_⟩
  have quiet : system.AtRest := by simp [System.AtRest, rest]
  refine System.registry_exact_at_rest ran ?_ quiet
  simp only [orderlyActions, Runs.always_cons, Runs.always_nil, and_true]
  refine ⟨?_, ?_, ?_, ?_, ?_, ?_, ?_, ?_, ?_, ?saved, ?_, ?ended, ?_, ?_⟩
  case saved =>
    intro before ran id waits
    have left : leaves (orderlyActions.take 9) "a" "chat" =
        some ([.clear .callback "a" (some "chat"), .clear .stop "a" (some "chat")], true, true,
          some ⟨some "chat", true⟩) := by decide
    obtain ⟨reached, same, reads⟩ := Option.map_eq_some_iff.mp left
    obtain rfl := Option.some.inj (same.symm.trans ran)
    rw [(Prod.mk.inj reads).1] at waits
    simp at waits
  case ended =>
    rintro before ran ⟨task, known, running⟩
    have left : leaves (orderlyActions.take 11) "a" "chat" =
        some ([.forget "a", .clear .stop "a" (some "chat")], false, true,
          some ⟨some "chat", true⟩) := by decide
    obtain ⟨reached, same, reads⟩ := Option.map_eq_some_iff.mp left
    obtain rfl := Option.some.inj (same.symm.trans ran)
    simp only [Prod.mk.injEq] at reads
    obtain rfl := Option.some.inj (known.symm.trans reads.2.2.2)
    cases running
  all_goals exact fun _ _ => trivial

end OpenWebui.Tasks
