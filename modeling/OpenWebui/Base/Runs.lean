import Mathlib.Data.List.Induction
import Mathlib.Logic.Relation

/-! Runs as lists of events: what holds of every event after the events before it. -/

namespace OpenWebui.Runs

universe u v w

variable {α : Type u}

/-- Every event of a run is good after the events before it. -/
def Always (good : List α → α → Prop) (run : List α) : Prop :=
  ∀ earlier event later, run = earlier ++ event :: later → good earlier event

@[simp] theorem always_nil (good : List α → α → Prop) : Always good [] := by
  intro earlier event later split
  simp at split

theorem always_cons {good : List α → α → Prop} {first : α} {rest : List α} :
    Always good (first :: rest) ↔
      good [] first ∧ Always (fun earlier => good (first :: earlier)) rest := by
  constructor
  · intro always
    refine ⟨always [] first rest rfl, ?_⟩
    intro earlier event later split
    exact always (first :: earlier) event later (by rw [split]; rfl)
  · rintro ⟨starts, always⟩ earlier event later split
    cases earlier with
    | nil =>
      obtain ⟨rfl, _⟩ := List.cons.inj split
      exact starts
    | cons head tail =>
      obtain ⟨rfl, remains⟩ := List.cons.inj split
      exact always tail event later remains

theorem always_append {good : List α → α → Prop} {run : List α} {last : α} :
    Always good (run ++ [last]) ↔ Always good run ∧ good run last := by
  constructor
  · intro always
    refine ⟨?_, always run last [] rfl⟩
    intro earlier event later split
    exact always earlier event (later ++ [last]) (by simp [split])
  · rintro ⟨always, ends⟩ earlier event later split
    rcases later.eq_nil_or_concat with rfl | ⟨before, final, rfl⟩
    · obtain ⟨rfl, same⟩ := List.append_inj' split rfl
      obtain rfl := List.singleton_inj.mp same
      exact ends
    · rw [List.concat_eq_append, ← List.cons_append, ← List.append_assoc] at split
      exact always earlier event before (List.append_inj' split rfl).1

theorem always_iff_of_invariant {first second : List α → α → Prop} {invariant : List α → Prop}
    (starts : invariant [])
    (same : ∀ earlier event, invariant earlier → (first earlier event ↔ second earlier event))
    (kept : ∀ earlier event, invariant earlier → first earlier event →
      invariant (earlier ++ [event])) (run : List α) : Always first run ↔ Always second run := by
  have both : (Always first run ↔ Always second run) ∧ (Always first run → invariant run) := by
    induction run using List.reverseRecOn with
    | nil => exact ⟨iff_of_true (always_nil first) (always_nil second), fun _ => starts⟩
    | append_singleton run last ih =>
      obtain ⟨before, reached⟩ := ih
      rw [always_append, always_append, ← before]
      refine ⟨and_congr_right fun always => same run last (reached always), ?_⟩
      rintro ⟨always, ends⟩
      exact kept run last (reached always) ends
  exact both.1

theorem foldlM_invariant {σ : Type v} {act : σ → α → Option σ} {good : σ → α → Prop}
    (holds : σ → Prop)
    (kept : ∀ old event new, holds old → good old event → act old event = some new → holds new)
    {start final : σ} (starts : holds start) {run : List α}
    (always : Always (fun earlier event =>
      ∀ old, earlier.foldlM act start = some old → good old event) run)
    (ran : run.foldlM act start = some final) : holds final := by
  induction run generalizing start with
  | nil =>
    obtain rfl := Option.some.inj ran
    exact starts
  | cons event rest ih =>
    obtain ⟨first, later⟩ := always_cons.mp always
    rw [List.foldlM_cons, Option.bind_eq_bind, Option.bind_eq_some_iff] at ran
    obtain ⟨next, acted, ran⟩ := ran
    refine ih (kept _ _ _ starts (first start rfl) acted) ?_ ran
    intro earlier last remains split old reached
    exact later earlier last remains split old (by simp [acted, reached])

theorem foldl_invariant {σ : Type v} {step : σ → α → σ} {good : σ → α → Prop} (holds : σ → Prop)
    (kept : ∀ old event, holds old → good old event → holds (step old event))
    {start : σ} (starts : holds start) {run : List α}
    (always : Always (fun earlier event => good (earlier.foldl step start) event) run) :
    holds (run.foldl step start) := by
  induction run generalizing start with
  | nil => exact starts
  | cons event rest ih =>
    obtain ⟨first, later⟩ := always_cons.mp always
    exact ih (kept start event starts first) later

/-- Every state that a run reaches, its start and its end among them, with the events before it. -/
def ThroughoutWith {σ : Type v} (holds : List α → σ → Prop) (act : σ → α → Option σ) (start : σ)
    (run : List α) : Prop :=
  ∀ earlier later, run = earlier ++ later →
    ∀ state, earlier.foldlM act start = some state → holds earlier state

/-- Every state that a run reaches, its start and its end among them. -/
def Throughout {σ : Type v} (holds : σ → Prop) (act : σ → α → Option σ) (start : σ)
    (run : List α) : Prop :=
  ∀ earlier later, run = earlier ++ later →
    ∀ state, earlier.foldlM act start = some state → holds state

theorem throughoutWith_nil {σ : Type v} {holds : List α → σ → Prop} {act : σ → α → Option σ}
    {start : σ} : ThroughoutWith holds act start [] ↔ holds [] start := by
  constructor
  · intro throughout
    exact throughout [] [] rfl start rfl
  · intro starts earlier later split state reached
    obtain ⟨rfl, _⟩ := List.append_eq_nil_iff.mp split.symm
    obtain rfl := Option.some.inj reached
    exact starts

theorem throughoutWith_cons {σ : Type v} {holds : List α → σ → Prop} {act : σ → α → Option σ}
    {start next : σ} {event : α} {rest : List α} (acted : act start event = some next) :
    ThroughoutWith holds act start (event :: rest) ↔ holds [] start ∧
      ThroughoutWith (fun earlier => holds (event :: earlier)) act next rest := by
  constructor
  · intro throughout
    refine ⟨throughout [] (event :: rest) rfl start rfl, ?_⟩
    intro earlier later split state reached
    refine throughout (event :: earlier) later (by rw [split]; rfl) state ?_
    rw [List.foldlM_cons, acted]
    exact reached
  · rintro ⟨starts, throughout⟩ earlier later split state reached
    cases earlier with
    | nil =>
      obtain rfl := Option.some.inj reached
      exact starts
    | cons head tail =>
      obtain ⟨rfl, remains⟩ := List.cons.inj split
      rw [List.foldlM_cons, acted] at reached
      exact throughout tail later remains state reached

theorem throughoutWith_iff {σ : Type v} {act : σ → α → Option σ} {good : σ → α → Prop}
    {holds invariant : List α → σ → Prop}
    (stays : ∀ earlier old event new, invariant earlier old → act old event = some new →
      invariant (earlier ++ [event]) new)
    (kept : ∀ earlier old event new, invariant earlier old → holds earlier old →
      act old event = some new → (holds (earlier ++ [event]) new ↔ good old event))
    {start final : σ} {run : List α} (sound : invariant [] start) (starts : holds [] start)
    (ran : run.foldlM act start = some final) :
    ThroughoutWith holds act start run ↔ Always (fun earlier event =>
      ∀ old, earlier.foldlM act start = some old → good old event) run := by
  induction run generalizing start holds invariant with
  | nil => exact iff_of_true (throughoutWith_nil.mpr starts) (always_nil _)
  | cons event rest ih =>
    rw [List.foldlM_cons, Option.bind_eq_bind, Option.bind_eq_some_iff] at ran
    obtain ⟨next, acted, ran⟩ := ran
    have shifted : ∀ earlier : List α,
        (event :: earlier).foldlM act start = earlier.foldlM act next := by
      intro earlier
      rw [List.foldlM_cons, acted]
      rfl
    have step := kept [] start event next sound starts acted
    -- What is said of the events before a state is said with the first event put before them.
    have rest_iff := fun holds_next => @ih (fun earlier => holds (event :: earlier))
      (fun earlier => invariant (event :: earlier))
      (fun earlier => stays (event :: earlier)) (fun earlier => kept (event :: earlier)) next
      (stays [] start event next sound acted) holds_next ran
    rw [throughoutWith_cons acted, always_cons]
    simp only [shifted]
    constructor
    · rintro ⟨_, throughout⟩
      have holds_next : holds [event] next := throughout [] rest rfl next rfl
      refine ⟨?_, (rest_iff holds_next).mp throughout⟩
      intro old reached
      obtain rfl := Option.some.inj reached
      exact step.mp holds_next
    · rintro ⟨first, always⟩
      exact ⟨starts, (rest_iff (step.mpr (first start rfl))).mpr always⟩

theorem throughout_iff_of_invariant {σ : Type v} {act : σ → α → Option σ} {good : σ → α → Prop}
    {holds invariant : σ → Prop}
    (stays : ∀ old event new, invariant old → act old event = some new → invariant new)
    (kept : ∀ old event new, invariant old → holds old → act old event = some new →
      (holds new ↔ good old event))
    {start final : σ} {run : List α} (sound : invariant start) (starts : holds start)
    (ran : run.foldlM act start = some final) :
    Throughout holds act start run ↔ Always (fun earlier event =>
      ∀ old, earlier.foldlM act start = some old → good old event) run :=
  @throughoutWith_iff α σ act good (fun _ => holds) (fun _ => invariant) (fun _ => stays)
    (fun _ => kept) start final run sound starts ran

theorem throughout_iff {σ : Type v} {act : σ → α → Option σ} {good : σ → α → Prop} {holds : σ → Prop}
    (kept : ∀ old event new, holds old → act old event = some new → (holds new ↔ good old event))
    {start final : σ} {run : List α} (starts : holds start)
    (ran : run.foldlM act start = some final) :
    Throughout holds act start run ↔ Always (fun earlier event =>
      ∀ old, earlier.foldlM act start = some old → good old event) run :=
  @throughout_iff_of_invariant α σ act good holds (fun _ => True) (fun _ _ _ _ _ => trivial)
    (fun old event new _ => kept old event new) start final run trivial starts ran

/-- Two runs of the same actions end alike: both are cut off, or what the two reach is the same. -/
def EndAlike {ε : Type v} {σ : Type w} {τ : Type w} (same : σ → τ → Prop) :
    Except ε σ → Option τ → Prop
  | .ok first, some second => same first second
  | .error _, none => True
  | _, _ => False

theorem endAlike_iff {ε : Type v} {σ : Type w} {τ : Type w} {first : σ → α → Except ε σ}
    {second : τ → α → Option τ} {same : σ → τ → Prop} {good : σ → α → Prop}
    {invariant : σ → List α → Prop}
    (stays : ∀ state action rest next, invariant state (action :: rest) →
      first state action = .ok next → invariant next rest)
    (alike : ∀ state other action rest, invariant state (action :: rest) → same state other →
      (EndAlike same (first state action) (second other action) ↔ good state action))
    {start : σ} {other : τ} {run : List α} (sound : invariant start run) (starts : same start other) :
    (∀ n, EndAlike same ((run.take n).foldlM first start) ((run.take n).foldlM second other)) ↔
      Always (fun earlier action =>
        ∀ state, earlier.foldlM first start = .ok state → good state action) run := by
  induction run generalizing start other with
  | nil => exact iff_of_true (fun n => by rw [List.take_nil]; exact starts) (always_nil _)
  | cons action rest ih =>
    have step := alike start other action rest sound starts
    rw [always_cons]
    constructor
    · intro ends
      have one := ends 1
      simp only [List.take_succ_cons, List.take_zero, List.foldlM_cons, List.foldlM_nil, bind_pure]
        at one
      refine ⟨fun state reached => by cases reached; exact step.mp one, ?_⟩
      intro earlier last later split state reached
      rw [List.foldlM_cons] at reached
      cases acted : first start action with
      | error raised =>
        rw [acted] at reached
        cases reached
      | ok next =>
        rw [acted] at reached
        cases moved : second other action with
        | none =>
          rw [acted, moved] at one
          exact one.elim
        | some other_next =>
          rw [acted, moved] at one
          refine (ih (stays start action rest next sound acted) one).mp (fun n => ?_) earlier last later
            split state reached
          have more := ends (n + 1)
          rw [List.take_succ_cons, List.foldlM_cons, List.foldlM_cons, acted, moved] at more
          exact more
    · rintro ⟨now, always⟩ n
      cases n with
      | zero => exact starts
      | succ n =>
        have one := step.mpr (now start rfl)
        rw [List.take_succ_cons, List.foldlM_cons, List.foldlM_cons]
        cases acted : first start action with
        | error raised =>
          cases moved : second other action with
          | none => trivial
          | some other_next =>
            rw [acted, moved] at one
            exact one.elim
        | ok next =>
          cases moved : second other action with
          | none =>
            rw [acted, moved] at one
            exact one.elim
          | some other_next =>
            rw [acted, moved] at one
            refine (ih (stays start action rest next sound acted) one).mpr ?_ n
            intro earlier last later split state reached
            exact always earlier last later split state (by rw [List.foldlM_cons, acted]; exact reached)

end OpenWebui.Runs

namespace OpenWebui.Steps

universe u

variable {σ : Type u} {step : σ → σ → Prop}

/-- A run of any number of steps from one state to another. -/
abbrev Run (step : σ → σ → Prop) : σ → σ → Prop := Relation.ReflTransGen step

theorem invariant (holds : σ → Prop) (kept : ∀ old new, holds old → step old new → holds new)
    {start final : σ} (run : Run step start final) (starts : holds start) : holds final := by
  induction run with
  | refl => exact starts
  | tail _ last ih => exact kept _ _ ih last

end OpenWebui.Steps
