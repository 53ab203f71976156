import OpenWebui.Ydoc.NoteChecks

/-! The history of a document while sessions are registered as its users, over all workers that
share a Redis. A command to Redis is one step of a call. -/

namespace OpenWebui.Ydoc

universe u v

variable {υ : Type u} {σ : Type v} [SemilatticeSup σ] [OrderBot σ]

/-- What a socket asks for. The updates are those that pass their checks. -/
inductive Request (υ : Type u) where
  | ydoc_document_join (sid document_id : String)
  | yjs_document_update (sid document_id : String) (update : υ)
  | yjs_document_leave (sid document_id : String)
  | disconnect (sid : String)

abbrev Remaining := Option (String × List String)

inductive Stage (υ : Type u) where
  | idle
  | registered (document_id sid : String)
  | indexed (document_id sid : String)
  | pushed (key : String)
  | long (key : String)
  | read (key : String) (all_updates : List υ)
  | removed (document_id sid : String)
  | unindexed (document_id sid : String)
  | leaving (sid : String) (keys : List String)
  | left (key : String) (remaining : Remaining)
  | unused (key : String) (remaining : Remaining)
  | cleared (key : String) (remaining : Remaining)
  | returned

inductive Move (υ : Type u) where
  | begins (request : Request υ)
  | next

/-- What Redis has: the updates and the users of each document, and the documents of each session;
the calls and the rooms of all workers; and, for each document, every update that was accepted, with
how many there were when a session registered. -/
structure Shared (υ : Type u) where
  updates : String → List υ
  users : String → List String
  documents : String → List String
  calls : Nat → Stage υ
  rooms : List (String × String)
  accepted : String → List υ
  joined : String → String → Nat

namespace Shared

def start : Shared υ where
  updates _ := []
  users _ := []
  documents _ := []
  calls _ := .idle
  rooms := []
  accepted _ := []
  joined _ _ := 0

variable (shared : Shared υ)

def setStage (call : Nat) (stage : Stage υ) : Shared υ :=
  { shared with calls := Function.update shared.calls call stage }

def addUser (key sid : String) : Shared υ :=
  if sid ∈ shared.users key then shared
  else { shared with
    users := Function.update shared.users key (sid :: shared.users key)
    joined := Function.update shared.joined key
      (Function.update (shared.joined key) sid (shared.accepted key).length) }

def removeUser (key sid : String) : Shared υ :=
  { shared with
    users := Function.update shared.users key
      ((shared.users key).filter (fun other => decide (other ≠ sid))) }

def rpush (key : String) (update : υ) : Shared υ :=
  { shared with
    updates := Function.update shared.updates key (shared.updates key ++ [update])
    accepted := Function.update shared.accepted key (shared.accepted key ++ [update]) }

def setUpdates (key : String) (updates : List υ) : Shared υ :=
  { shared with updates := Function.update shared.updates key updates }

def proceed : Remaining → Stage υ
  | none => .returned
  | some (sid, keys) => .leaving sid keys

def begin (call : Nat) : Request υ → Option (Shared υ)
  | .ydoc_document_join sid document_id =>
    let document_id := normalize_document_id document_id
    some ((shared.addUser (storageKey document_id) sid).setStage call (.registered document_id sid))
  | .yjs_document_update sid document_id update =>
    let document_id := normalize_document_id document_id
    if (sid, document_id) ∈ shared.rooms then
      some ((shared.rpush (storageKey document_id) update).setStage call
        (.pushed (storageKey document_id)))
    else none
  | .yjs_document_leave sid document_id =>
    let document_id := normalize_document_id document_id
    some ((shared.removeUser (storageKey document_id) sid).setStage call (.removed document_id sid))
  | .disconnect sid =>
    some ({ shared with rooms := shared.rooms.filter (fun entry => decide (entry.1 ≠ sid)) }.setStage
      call (.leaving sid (shared.documents sid)))

def proceeds (merging : Merging υ σ) (call : Nat) : Stage υ → Option (Shared υ)
  | .idle => none
  | .registered document_id sid =>
    some ({ shared with
      documents := Function.update shared.documents sid
        (storageKey document_id :: shared.documents sid) }.setStage call (.indexed document_id sid))
  | .indexed document_id sid =>
    some ({ shared with rooms := (sid, document_id) :: shared.rooms }.setStage call .returned)
  | .pushed key =>
    some (shared.setStage call
      (if COMPACTION_THRESHOLD ≤ (shared.updates key).length then .long key else .returned))
  | .long key =>
    some (shared.setStage call
      (if (shared.updates key).length ≤ 1 then .returned else .read key (shared.updates key)))
  | .read key all_updates =>
    some ((shared.setUpdates key (rolling merging all_updates)).setStage call .returned)
  | .removed document_id sid =>
    some ({ shared with
      documents := Function.update shared.documents sid
        ((shared.documents sid).filter (fun key => decide (key ≠ storageKey document_id)))
      rooms := shared.rooms.filter (fun entry => decide (entry ≠ (sid, document_id))) }.setStage call
        (.unindexed document_id sid))
  | .unindexed document_id _ =>
    some (shared.setStage call (if shared.updates (storageKey document_id) = [] then .returned
      else .left (storageKey document_id) none))
  | .leaving sid [] =>
    some ({ shared with documents := Function.update shared.documents sid [] }.setStage call
      .returned)
  | .leaving sid (key :: keys) =>
    some ((shared.removeUser key sid).setStage call (.left key (some (sid, keys))))
  | .left key remaining =>
    some (shared.setStage call
      (if shared.users key = [] then .unused key remaining else proceed remaining))
  | .unused key remaining => some ((shared.setUpdates key []).setStage call (.cleared key remaining))
  | .cleared key remaining =>
    some ({ shared with users := Function.update shared.users key [] }.setStage call
      (proceed remaining))
  | .returned => none

def act (merging : Merging υ σ) (shared : Shared υ) (event : Nat × Move υ) : Option (Shared υ) :=
  match event.2 with
  | .begins request =>
    match shared.calls event.1 with
    | .idle => shared.begin event.1 request
    | _ => none
  | .next => shared.proceeds merging event.1 (shared.calls event.1)

def since (key sid : String) : List υ := (shared.accepted key).drop (shared.joined key sid)

end Shared

/-- As long as sessions are registered as users of a document, what is stored includes every update
that was accepted since the earliest of them joined. -/
def HistoryKept (merging : Merging υ σ) (shared : Shared υ) : Prop :=
  ∀ key, ∀ sid ∈ shared.users key,
    merging.merged (shared.since key sid) ≤ merging.merged (shared.updates key)

/-- When a document is cleared, nothing was accepted since any session joined that is registered by
then; and a list that is squashed has what was accepted since any of them joined. -/
def SafeMove (merging : Merging υ σ) (shared : Shared υ) (event : Nat × Move υ) : Prop :=
  event.2 = .next →
    match shared.calls event.1 with
    | .unused key _ => ∀ sid ∈ shared.users key, merging.merged (shared.since key sid) ≤ ⊥
    | .read key all_updates => ∀ sid ∈ shared.users key,
        merging.merged (shared.since key sid) ≤ merging.merged all_updates
    | _ => True

section Kept

variable {merging : Merging υ σ} {old new : Shared υ}

theorem historyKept_setStage {call : Nat} {stage : Stage υ} :
    HistoryKept merging (old.setStage call stage) ↔ HistoryKept merging old := Iff.rfl

theorem historyKept_addUser (kept : HistoryKept merging old) (key sid : String) :
    HistoryKept merging (old.addUser key sid) := by
  unfold Shared.addUser
  split
  · exact kept
  · intro other user inside
    simp only [Shared.since, Function.update_apply] at inside ⊢
    split at inside
    · rename_i here
      subst here
      rw [if_pos rfl]
      rw [Function.update_apply]
      by_cases same : user = sid
      · rw [if_pos same, List.drop_length, Merging.merged_nil]
        exact bot_le
      · rw [if_neg same]
        exact kept other user ((List.mem_cons.mp inside).resolve_left same)
    · rename_i apart
      rw [if_neg apart]
      exact kept other user inside

theorem historyKept_removeUser (kept : HistoryKept merging old) (key sid : String) :
    HistoryKept merging (old.removeUser key sid) := by
  intro other user inside
  refine kept other user ?_
  simp only [Shared.removeUser, Function.update_apply] at inside
  split at inside
  · rename_i here
    rw [here]
    exact List.mem_of_mem_filter inside
  · exact inside

theorem historyKept_rpush (kept : HistoryKept merging old) (key : String) (update : υ) :
    HistoryKept merging (old.rpush key update) := by
  intro other sid inside
  simp only [Shared.since, Shared.rpush, Function.update_apply]
  split
  · rename_i here
    subst here
    rw [List.drop_append, Merging.merged_append, Merging.merged_append]
    refine sup_le_sup (kept other sid inside) (merging.merged_le.mpr ?_)
    intro found member
    exact merging.le_merged (List.mem_of_mem_drop member)
  · exact kept other sid inside

theorem historyKept_setUpdates_iff (kept : HistoryKept merging old) (key : String)
    (updates : List υ) : HistoryKept merging (old.setUpdates key updates) ↔
      ∀ sid ∈ old.users key, merging.merged (old.since key sid) ≤ merging.merged updates := by
  constructor
  · intro remains sid inside
    have here := remains key sid inside
    simp only [Shared.setUpdates, Function.update_self] at here
    exact here
  · intro enough other sid inside
    simp only [Shared.setUpdates, Function.update_apply]
    split
    · rename_i here
      subst here
      exact enough sid inside
    · exact kept other sid inside

theorem historyKept_begin (kept : HistoryKept merging old) {call : Nat} {request : Request υ}
    (begun : old.begin call request = some new) : HistoryKept merging new := by
  cases request with
  | ydoc_document_join sid document_id =>
    simp only [Shared.begin, Option.some.injEq] at begun
    subst begun
    exact historyKept_setStage.mpr (historyKept_addUser kept _ _)
  | yjs_document_update sid document_id update =>
    simp only [Shared.begin, Option.ite_none_right_eq_some, Option.some.injEq] at begun
    obtain ⟨_, rfl⟩ := begun
    exact historyKept_setStage.mpr (historyKept_rpush kept _ _)
  | yjs_document_leave sid document_id =>
    simp only [Shared.begin, Option.some.injEq] at begun
    subst begun
    exact historyKept_setStage.mpr (historyKept_removeUser kept _ _)
  | disconnect sid =>
    simp only [Shared.begin, Option.some.injEq] at begun
    subst begun
    exact kept

theorem historyKept_act_iff (kept : HistoryKept merging old) {event : Nat × Move υ}
    (acted : old.act merging event = some new) :
    HistoryKept merging new ↔ SafeMove merging old event := by
  obtain ⟨call, move⟩ := event
  cases move with
  | begins request =>
    refine iff_of_true ?_ (fun same => by cases same)
    unfold Shared.act at acted
    dsimp only at acted
    split at acted
    · exact historyKept_begin kept acted
    · cases acted
  | next =>
    change old.proceeds merging call (old.calls call) = some new at acted
    unfold SafeMove
    rw [forall_prop_of_true rfl]
    dsimp only
    cases stage : old.calls call with
    | idle =>
      rw [stage] at acted
      cases acted
    | returned =>
      rw [stage] at acted
      cases acted
    | registered document_id sid =>
      rw [stage] at acted
      obtain rfl := Option.some.inj acted
      exact iff_of_true kept trivial
    | indexed document_id sid =>
      rw [stage] at acted
      obtain rfl := Option.some.inj acted
      exact iff_of_true kept trivial
    | pushed key =>
      rw [stage] at acted
      obtain rfl := Option.some.inj acted
      exact iff_of_true kept trivial
    | long key =>
      rw [stage] at acted
      obtain rfl := Option.some.inj acted
      exact iff_of_true kept trivial
    | read key all_updates =>
      rw [stage] at acted
      obtain rfl := Option.some.inj acted
      rw [historyKept_setStage, historyKept_setUpdates_iff kept, rolling, Merging.merged_compact]
    | removed document_id sid =>
      rw [stage] at acted
      obtain rfl := Option.some.inj acted
      exact iff_of_true kept trivial
    | unindexed document_id sid =>
      rw [stage] at acted
      obtain rfl := Option.some.inj acted
      exact iff_of_true kept trivial
    | leaving sid keys =>
      rw [stage] at acted
      cases keys with
      | nil =>
        obtain rfl := Option.some.inj acted
        exact iff_of_true kept trivial
      | cons key keys =>
        obtain rfl := Option.some.inj acted
        exact iff_of_true (historyKept_setStage.mpr (historyKept_removeUser kept key sid)) trivial
    | left key remaining =>
      rw [stage] at acted
      obtain rfl := Option.some.inj acted
      exact iff_of_true kept trivial
    | unused key remaining =>
      rw [stage] at acted
      obtain rfl := Option.some.inj acted
      rw [historyKept_setStage, historyKept_setUpdates_iff kept, Merging.merged_nil]
    | cleared key remaining =>
      rw [stage] at acted
      obtain rfl := Option.some.inj acted
      refine iff_of_true (historyKept_setStage.mpr ?_) trivial
      intro other user inside
      refine kept other user ?_
      simp only [Function.update_apply] at inside
      split at inside
      · cases inside
      · exact inside

end Kept

theorem historyKept_start (merging : Merging υ σ) : HistoryKept merging Shared.start := by
  intro key sid inside
  cases inside

/-- The history of every document is kept in every state of a run exactly when no step of it clears
or squashes away what was accepted since a registered session joined. -/
theorem history_kept_iff (merging : Merging υ σ) {run : List (Nat × Move υ)} {final : Shared υ}
    (ran : run.foldlM (Shared.act merging) Shared.start = some final) :
    Runs.Throughout (HistoryKept merging) (Shared.act merging) Shared.start run ↔
      Runs.Always (fun earlier event => ∀ shared,
        earlier.foldlM (Shared.act merging) Shared.start = some shared →
          SafeMove merging shared event) run :=
  Runs.throughout_iff (fun _ _ _ kept acted => historyKept_act_iff kept acted)
    (historyKept_start merging) ran

def additive (shared : Shared υ) (event : Nat × Move υ) : Bool :=
  match shared.calls event.1 with
  | .unused _ _ => false
  | .read _ _ => false
  | _ => true

theorem safeMove_of_additive {merging : Merging υ σ} {shared : Shared υ} {event : Nat × Move υ}
    (adds : additive shared event = true) : SafeMove merging shared event := by
  intro _
  unfold additive at adds
  cases stage : shared.calls event.1 with
  | unused key remaining =>
    rw [stage] at adds
    cases adds
  | read key all_updates =>
    rw [stage] at adds
    cases adds
  | _ => exact trivial

def oneRemains : List (Nat × Move Nat) :=
  [(0, .begins (.ydoc_document_join "a" "note:1")), (0, .next), (0, .next),
    (1, .begins (.yjs_document_update "a" "note_1" 1)), (1, .next),
    (2, .begins (.ydoc_document_join "b" "note:1")), (2, .next), (2, .next),
    (3, .begins (.yjs_document_leave "a" "note:1")), (3, .next),
    (4, .begins (.yjs_document_update "b" "note:1" 2)), (3, .next), (3, .next), (4, .next)]

theorem oneRemains_kept :
    Runs.Throughout (HistoryKept largest) (Shared.act largest) Shared.start oneRemains := by
  obtain ⟨final, ran⟩ := Option.isSome_iff_exists.mp
    (by decide +kernel : (oneRemains.foldlM (Shared.act largest) Shared.start).isSome = true)
  refine (history_kept_iff largest ran).mpr ?_
  intro earlier event later split shared reached
  have each : ∀ count < oneRemains.length, ((oneRemains.take count).foldlM (Shared.act largest)
      Shared.start).all (fun shared =>
        oneRemains[count]?.all (fun event => additive shared event)) = true := by
    decide +kernel
  have here := each earlier.length (by rw [split]; simp)
  have front : oneRemains.take earlier.length = earlier := by
    rw [split, List.take_left]
  have this_one : oneRemains[earlier.length]? = some event := by
    rw [split, List.getElem?_append_right (Nat.le_refl _), Nat.sub_self]
    rfl
  rw [front, reached, Option.all_some, this_one, Option.all_some] at here
  exact safeMove_of_additive here

def clearedMeanwhile : List (Nat × Move Nat) :=
  [(0, .begins (.ydoc_document_join "a" "note:1")), (0, .next), (0, .next),
    (1, .begins (.yjs_document_update "a" "note:1" 1)), (1, .next),
    (2, .begins (.yjs_document_leave "a" "note:1")), (2, .next), (2, .next), (2, .next),
    (3, .begins (.ydoc_document_join "b" "note:1")), (3, .next), (3, .next),
    (4, .begins (.yjs_document_update "b" "note:1" 2)), (4, .next), (2, .next)]

theorem clearedMeanwhile_not_kept :
    ¬ ∀ (run : List (Nat × Move Nat)) (final : Shared Nat),
      run.foldlM (Shared.act largest) Shared.start = some final →
        Runs.Throughout (HistoryKept largest) (Shared.act largest) Shared.start run := by
  intro always
  obtain ⟨final, ran⟩ := Option.isSome_iff_exists.mp
    (by decide +kernel : (clearedMeanwhile.foldlM (Shared.act largest) Shared.start).isSome = true)
  have kept := always clearedMeanwhile final ran clearedMeanwhile [] (List.append_nil _).symm final ran
  have facts : (clearedMeanwhile.foldlM (Shared.act largest) Shared.start).all (fun shared =>
      decide ("b" ∈ shared.users "note_1") && decide (shared.since "note_1" "b" = [2]) &&
        decide (shared.updates "note_1" = [])) = true := by
    decide +kernel
  rw [ran, Option.all_some, Bool.and_eq_true, Bool.and_eq_true, decide_eq_true_eq,
    decide_eq_true_eq, decide_eq_true_eq] at facts
  have lost := kept "note_1" "b" facts.1.1
  rw [facts.1.2, facts.2] at lost
  exact absurd lost (by decide)

end OpenWebui.Ydoc
