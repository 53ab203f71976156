import Mathlib.Order.Lattice.Nat
import Mathlib.Order.Nat
import OpenWebui.Ydoc.Documents

/-! Reading a document gives what was appended to it since it was cleared, where the list that a
compaction has read is still the content of the document when it is written back. -/

namespace OpenWebui.Ydoc

universe u v

variable {υ : Type u} {σ : Type v} [SemilatticeSup σ] [OrderBot σ] (merging : Merging υ σ)

namespace Redis

/-- A pipeline writes back a list that merges to what the list has by then: nothing that it lacks
was pushed, and nothing was cleared, since the call has read it. -/
def Undisturbed (redis : Redis υ) (event : Nat × Action υ) : Prop :=
  event.2 = .pipeline → ∀ key all_updates, redis.calls event.1 = .read key all_updates →
    merging.merged all_updates = merging.merged (redis.updates key)

/-- Every list carries what was appended to it. -/
def Kept (redis : Redis υ) : Prop :=
  ∀ key, merging.merged (redis.updates key) = merging.merged (redis.appended key)

@[simp] theorem updates_setPhase (redis : Redis υ) (call : Nat) (phase : Phase υ) :
    (redis.setPhase call phase).updates = redis.updates := rfl

@[simp] theorem appended_setPhase (redis : Redis υ) (call : Nat) (phase : Phase υ) :
    (redis.setPhase call phase).appended = redis.appended := rfl

@[simp] theorem calls_setPhase (redis : Redis υ) (call other : Nat) (phase : Phase υ) :
    (redis.setPhase call phase).calls other = if other = call then phase else redis.calls other :=
  Function.update_apply ..

@[simp] theorem calls_setUpdates (redis : Redis υ) (key : String) (updates : List υ) :
    (redis.setUpdates key updates).calls = redis.calls := rfl

@[simp] theorem calls_setAppended (redis : Redis υ) (key : String) (updates : List υ) :
    (redis.setAppended key updates).calls = redis.calls := rfl

@[simp] theorem updates_setUpdates (redis : Redis υ) (key other : String) (updates : List υ) :
    (redis.setUpdates key updates).updates other =
      if other = key then updates else redis.updates other :=
  Function.update_apply ..

@[simp] theorem appended_setUpdates (redis : Redis υ) (key : String) (updates : List υ) :
    (redis.setUpdates key updates).appended = redis.appended := rfl

@[simp] theorem updates_setAppended (redis : Redis υ) (key : String) (updates : List υ) :
    (redis.setAppended key updates).updates = redis.updates := rfl

@[simp] theorem appended_setAppended (redis : Redis υ) (key other : String) (updates : List υ) :
    (redis.setAppended key updates).appended other =
      if other = key then updates else redis.appended other :=
  Function.update_apply ..

section Keep

variable {merging} {old new : Redis υ}

theorem act_kept_iff {event : Nat × Action υ} (kept : Kept merging old)
    (acted : act merging old event = some new) :
    Kept merging new ↔ Undisturbed merging old event := by
  obtain ⟨call, action⟩ := event
  cases phase : old.calls call <;> cases action <;> simp only [act, phase, reduceCtorEq] at acted
  case idle.append_to_updates document_id update =>
    obtain rfl := Option.some.inj acted
    refine iff_of_true ?_ (by simp [Undisturbed])
    intro key
    simp only [updates_setPhase, updates_setAppended, updates_setUpdates, appended_setPhase,
      appended_setAppended, appended_setUpdates]
    split
    · rw [Merging.merged_append, Merging.merged_append, kept]
    · exact kept key
  case idle.get_updates document_id =>
    obtain rfl := Option.some.inj acted
    exact iff_of_true kept (by simp [Undisturbed])
  case idle.clear_document document_id =>
    obtain rfl := Option.some.inj acted
    refine iff_of_true ?_ (by simp [Undisturbed])
    intro key
    simp only [updates_setPhase, updates_setAppended, updates_setUpdates, appended_setPhase,
      appended_setAppended, appended_setUpdates]
    split
    · rfl
    · exact kept key
  case pushed.llen key =>
    obtain rfl := Option.some.inj acted
    exact iff_of_true kept (by simp [Undisturbed])
  case long.lrange key =>
    obtain rfl := Option.some.inj acted
    exact iff_of_true kept (by simp [Undisturbed])
  case read.pipeline key all_updates =>
    obtain rfl := Option.some.inj acted
    constructor
    · intro remains _ other others reading
      obtain ⟨rfl, rfl⟩ := Phase.read.inj (phase.symm.trans reading)
      have here := remains key
      simp only [updates_setPhase, updates_setUpdates, if_true, rolling, Merging.merged_compact,
        appended_setPhase, appended_setUpdates] at here
      rw [here, kept]
    · intro undisturbed other
      simp only [updates_setPhase, updates_setUpdates, appended_setPhase, appended_setUpdates]
      split
      · rename_i same
        rw [rolling, Merging.merged_compact, undisturbed rfl key all_updates phase, same, kept]
      · exact kept other

def appends (document_id : String) (first : Nat) : List υ → List (Nat × Action υ)
  | [] => []
  | update :: rest => (first, .append_to_updates document_id update) :: (first, .llen) ::
      appends document_id (first + 1) rest

theorem run_appends {document_id : String} {updates : List υ} {first : Nat}
    (idle : ∀ call, first ≤ call → old.calls call = .idle)
    (short : (old.get_updates document_id).length + updates.length < COMPACTION_THRESHOLD) :
    ∃ new, run merging old (appends document_id first updates) = some new ∧
      new.get_updates document_id = old.get_updates document_id ++ updates ∧
      new.appended (storageKey document_id) = old.appended (storageKey document_id) ++ updates ∧
      ∀ call, new.calls call =
        if first ≤ call ∧ call < first + updates.length then .returned else old.calls call := by
  induction updates generalizing old first with
  | nil =>
    refine ⟨old, rfl, by simp, by simp, ?_⟩
    intro call
    rw [if_neg (by simp)]
  | cons update rest ih =>
    let key := storageKey document_id
    let pushed := ((old.setUpdates key (old.updates key ++ [update])).setAppended key
      (old.appended key ++ [update])).setPhase first (.pushed key)
    let next := pushed.setPhase first .returned
    rw [List.length_cons] at short
    have push : act merging old (first, .append_to_updates document_id update) = some pushed := by
      simp only [act, idle first (Nat.le_refl first)]
      rfl
    have measure : act merging pushed (first, .llen) = some next := by
      have phase : pushed.calls first = .pushed key := by simp [pushed]
      have length : (pushed.updates key).length = (old.get_updates document_id).length + 1 := by
        simp [pushed, key, get_updates]
      simp only [act, phase, length]
      rw [if_neg (by omega)]
    have reads : next.get_updates document_id = old.get_updates document_id ++ [update] := by
      simp [next, pushed, key, get_updates]
    obtain ⟨new, ran, updates, appended, calls⟩ := @ih next (first + 1)
      (by
        intro call later
        have other : call ≠ first := by omega
        simpa [next, pushed, other] using idle call (by omega))
      (by rw [reads, List.length_append, List.length_singleton]; omega)
    refine ⟨new, ?_, ?_, ?_, ?_⟩
    · simp only [appends, run, List.foldlM_cons, push, measure, Option.bind_eq_bind,
        Option.bind_some]
      exact ran
    · rw [updates, reads, List.append_assoc, List.singleton_append]
    · rw [appended]
      simp [next, pushed, key]
    · intro call
      rw [calls, List.length_cons]
      by_cases same : call = first
      · rw [if_neg (by omega), if_pos (by omega)]
        simp [next, same]
      · simp only [next, pushed, calls_setPhase, same, if_false, calls_setAppended,
          calls_setUpdates]
        by_cases inside : first + 1 ≤ call ∧ call < first + 1 + rest.length
        · rw [if_pos inside, if_pos (by omega)]
        · rw [if_neg inside, if_neg (by omega)]

theorem run_pushed_meanwhile {document_id : String} {call other : Nat} (update meanwhile : υ)
    (apart : other ≠ call) (is_idle : old.calls call = .idle) (other_idle : old.calls other = .idle)
    (full : (old.get_updates document_id).length + 1 = COMPACTION_THRESHOLD) :
    ∃ new, run merging old [(call, .append_to_updates document_id update), (call, .llen),
        (call, .lrange), (other, .append_to_updates document_id meanwhile), (call, .pipeline),
        (other, .llen)] = some new ∧
      merging.merged (new.get_updates document_id) =
        merging.merged (old.get_updates document_id) ⊔ merging.content update ∧
      new.appended (storageKey document_id) =
        old.appended (storageKey document_id) ++ [update, meanwhile] ∧
      ∀ third, new.calls third =
        if third = call ∨ third = other then .returned else old.calls third := by
  let key := storageKey document_id
  let list := old.updates key ++ [update]
  let pushed := ((old.setUpdates key list).setAppended key
    (old.appended key ++ [update])).setPhase call (.pushed key)
  let long := pushed.setPhase call (.long key)
  let read := long.setPhase call (.read key list)
  let between := ((read.setUpdates key (list ++ [meanwhile])).setAppended key
    (old.appended key ++ [update] ++ [meanwhile])).setPhase other (.pushed key)
  let rewritten := (between.setUpdates key (rolling merging list)).setPhase call .returned
  let new := rewritten.setPhase other .returned
  have length : list.length = COMPACTION_THRESHOLD := by
    rw [← full, List.length_append, List.length_singleton]
    rfl
  have first : act merging old (call, .append_to_updates document_id update) = some pushed := by
    simp only [act, is_idle]
    rfl
  have second : act merging pushed (call, .llen) = some long := by
    have phase : pushed.calls call = .pushed key := by simp [pushed]
    have holds : pushed.updates key = list := by simp [pushed]
    simp only [act, phase, holds]
    rw [if_pos (by omega)]
  have third : act merging long (call, .lrange) = some read := by
    have phase : long.calls call = .long key := by simp [long]
    have holds : long.updates key = list := by simp [long, pushed]
    simp only [act, phase, holds]
    rw [if_neg (by rw [length, COMPACTION_THRESHOLD]; omega)]
  have fourth : act merging read (other, .append_to_updates document_id meanwhile) =
      some between := by
    have phase : read.calls other = .idle := by simp [read, long, pushed, apart, other_idle]
    have holds : read.updates (storageKey document_id) = list := by simp [read, long, pushed, key]
    have were : read.appended (storageKey document_id) = old.appended key ++ [update] := by
      simp [read, long, pushed, key]
    simp only [act, phase, holds, were]
    rfl
  have fifth : act merging between (call, .pipeline) = some rewritten := by
    have phase : between.calls call = .read key list := by simp [between, read, apart.symm]
    simp only [act, phase]
    rfl
  have sixth : act merging rewritten (other, .llen) = some new := by
    have phase : rewritten.calls other = .pushed key := by simp [rewritten, between, apart]
    have holds : rewritten.updates key = rolling merging list := by simp [rewritten]
    simp only [act, phase, holds]
    rw [if_neg (by
      simp only [rolling, Merging.compact, List.length_cons, List.length_drop, length,
        COMPACTION_THRESHOLD]
      omega)]
  refine ⟨new, ?_, ?_, ?_, ?_⟩
  · simp only [run, List.foldlM_cons, List.foldlM_nil, Option.bind_eq_bind, first, second, third,
      fourth, fifth, sixth, Option.bind_some]
    rfl
  · have holds : new.get_updates document_id = rolling merging list := by
      simp [new, rewritten, get_updates, key]
    rw [holds, rolling, Merging.merged_compact, Merging.merged_append]
    simp [get_updates, key]
  · simp [new, rewritten, between, key]
  · intro another
    by_cases mine : another = call
    · simp [new, rewritten, mine]
    · by_cases its : another = other
      · simp [new, its]
      · simp [new, rewritten, between, read, long, pushed, mine, its]

end Keep

end Redis

namespace Memory

theorem merged_compact (updates : List υ) :
    merging.merged (compact merging updates) = merging.merged updates := by
  unfold compact
  split
  · rfl
  · exact merging.merged_compact _ updates

/-- Every list carries what was appended to it. -/
def Kept (memory : Memory υ) : Prop :=
  ∀ key, merging.merged ((memory.updates.get? key).getD []) = merging.merged (memory.appended key)

theorem kept_call {memory : Memory υ} (kept : Kept merging memory) (next : Call υ) :
    Kept merging (call merging memory next) := by
  intro key
  cases next with
  | append_to_updates document_id update =>
    simp only [call, Dict.get?_set, Function.update_apply]
    by_cases same : storageKey document_id = key
    · rw [if_pos same, if_pos same.symm, Option.getD_some, Merging.merged_append, ← kept]
      split
      · rw [merged_compact, Merging.merged_append]
      · rw [Merging.merged_append]
    · rw [if_neg same, if_neg (Ne.symm same)]
      exact kept key
  | clear_document document_id =>
    simp only [call, Dict.get?_erase, Function.update_apply]
    by_cases same : storageKey document_id = key
    · rw [if_pos same, if_pos same.symm]
      rfl
    · rw [if_neg same, if_neg (Ne.symm same)]
      exact kept key

theorem kept_run {memory : Memory υ} (kept : Kept merging memory) (calls : List (Call υ)) :
    Kept merging (run merging memory calls) := by
  induction calls generalizing memory with
  | nil => exact kept
  | cons first rest ih => exact ih (kept_call merging kept first)

end Memory

/-- Reading a document gives what was appended to it since it was cleared: in Redis in every state
of every run whose compactions are undisturbed, in memory after every sequence of calls. -/
theorem updates_kept :
    (∀ (events : List (Nat × Action υ)) (redis : Redis υ),
      Runs.Always (fun earlier event => ∀ old, Redis.run merging Redis.start earlier = some old →
        old.Undisturbed merging event) events →
      Redis.run merging Redis.start events = some redis → ∀ document_id,
        merging.merged (redis.get_updates document_id) =
          merging.merged (redis.appended (storageKey document_id))) ∧
    (∀ (calls : List (Call υ)) document_id,
      merging.merged ((Memory.run merging Memory.start calls).get_updates document_id) =
        merging.merged ((Memory.run merging Memory.start calls).appended
          (storageKey document_id))) := by
  constructor
  · intro events redis undisturbed ran document_id
    have starts : Redis.Kept merging Redis.start := fun _ => rfl
    have kept := Runs.foldlM_invariant (Redis.Kept merging)
      (fun _ _ _ kept good acted => (Redis.act_kept_iff kept acted).mpr good) starts undisturbed ran
    exact kept (storageKey document_id)
  · intro calls document_id
    have starts : Memory.Kept merging Memory.start := fun _ => rfl
    exact Memory.kept_run merging starts calls (storageKey document_id)

def largest : Merging Nat Nat where
  content update := update
  squash updates := (↑updates : Multiset Nat).sup
  squash_content updates := by rw [List.map_id']

def twoWorkers : List (Nat × Action Nat) :=
  [(0, .append_to_updates "note:1" 1), (1, .append_to_updates "note_1" 2), (0, .llen), (1, .llen),
    (2, .get_updates "note:1")]

theorem twoWorkers_kept : ∃ redis, Redis.run largest Redis.start twoWorkers = some redis ∧
    redis.appended (storageKey "note:1") = [1, 2] ∧
      largest.merged (redis.get_updates "note:1") =
        largest.merged (redis.appended (storageKey "note:1")) := by
  have appended : (Redis.run largest Redis.start twoWorkers).map
      (fun redis => redis.appended (storageKey "note:1")) = some [1, 2] := by decide +kernel
  obtain ⟨redis, ran, both⟩ := Option.map_eq_some_iff.mp appended
  refine ⟨redis, ran, both, (updates_kept largest).1 twoWorkers redis ?_ ran "note:1"⟩
  intro earlier event later split old _ is_pipeline
  have none_rewrites : ∀ event ∈ twoWorkers, event.2 ≠ .pipeline := by simp [twoWorkers]
  exact absurd is_pipeline (none_rewrites event (by rw [split]; simp))

def pushedMeanwhile : List (Nat × Action Nat) :=
  Redis.appends "note:1" 0 (List.replicate 499 1) ++
    [(499, .append_to_updates "note:1" 1), (499, .llen), (499, .lrange),
      (500, .append_to_updates "note:1" 2), (499, .pipeline), (500, .llen)]

/-- An update that another worker pushes during a compaction is lost. -/
theorem updates_not_kept : ¬ ∀ (events : List (Nat × Action Nat)) (redis : Redis Nat),
    Redis.run largest Redis.start events = some redis → redis.AtRest → ∀ document_id,
      largest.merged (redis.get_updates document_id) =
        largest.merged (redis.appended (storageKey document_id)) := by
  intro kept
  obtain ⟨filled, ran, updates, appended, calls⟩ := @Redis.run_appends _ _ _ _ largest
    (Redis.start : Redis Nat) "note:1" (List.replicate 499 1) 0 (fun _ _ => rfl)
    (by rw [List.length_replicate]; decide)
  rw [List.length_replicate] at calls
  have full : (filled.get_updates "note:1").length + 1 = COMPACTION_THRESHOLD := by
    rw [updates, List.length_append, List.length_replicate]
    rfl
  obtain ⟨final, ran', merged, appended', calls'⟩ := @Redis.run_pushed_meanwhile _ _ _ _ largest
    filled "note:1" 499 500 1 2 (by decide) (calls 499) (calls 500) full
  have whole : Redis.run largest Redis.start pushedMeanwhile = some final := by
    rw [pushedMeanwhile, Redis.run, List.foldlM_append, ← Redis.run, ran]
    exact ran'
  have rests : final.AtRest := by
    intro call
    rw [calls', calls]
    split
    · rfl
    · split <;> rfl
  have read_ : largest.merged (final.get_updates "note:1") ≤ 1 := by
    rw [merged, updates, sup_le_iff]
    refine ⟨largest.merged_le.mpr ?_, Nat.le_refl 1⟩
    intro update member
    exact Nat.le_of_eq (List.eq_of_mem_replicate member)
  have lost : 2 ≤ largest.merged (final.appended (storageKey "note:1")) := by
    rw [appended']
    exact @Merging.le_merged _ _ _ _ largest _ 2 (by simp)
  rw [← kept pushedMeanwhile final whole rests "note:1"] at lost
  exact absurd (Nat.le_trans lost read_) (by decide)

end OpenWebui.Ydoc
