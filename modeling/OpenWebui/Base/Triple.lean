/-! Programs that change a state and may raise, and what holds of the state when they return and
when they raise. -/

namespace OpenWebui

def Program (ε σ α : Type) := σ → Except ε α × σ

namespace Program

variable {ε σ α β : Type}

instance : Monad (Program ε σ) where
  pure value := fun state => (.ok value, state)
  bind program next := fun state =>
    match program state with
    | (.ok value, reached) => next value reached
    | (.error error, reached) => (.error error, reached)

theorem bind_ok {program : Program ε σ α} {next : α → Program ε σ β} {before after : σ} {value : α}
    (ran : program before = (.ok value, after)) : (program >>= next) before = next value after := by
  change (match program before with
    | (.ok value, reached) => next value reached
    | (.error error, reached) => (.error error, reached)) = _
  rw [ran]

theorem bind_error {program : Program ε σ α} {next : α → Program ε σ β} {before after : σ} {error : ε}
    (ran : program before = (.error error, after)) :
    (program >>= next) before = (.error error, after) := by
  change (match program before with
    | (.ok value, reached) => next value reached
    | (.error error, reached) => (.error error, reached)) = _
  rw [ran]

def get : Program ε σ σ := fun state => (.ok state, state)

def modify (change : σ → σ) : Program ε σ Unit := fun state => (.ok (), change state)

def ofExcept (value : Except ε α) : Program ε σ α := fun state => (value, state)

def raise (error : ε) : Program ε σ α := ofExcept (.error error)

def onlyIf (test : Bool) (program : Program ε σ Unit) : Program ε σ Unit :=
  if test then program else pure ()

def each {ι : Type} (turn : ι → Program ε σ Unit) : List ι → Program ε σ Unit
  | [] => pure ()
  | item :: rest => do
    turn item
    each turn rest

/-- From a state before, the program returns with what holds after, or raises with what holds
when raised. -/
def Triple (before : σ → Prop) (program : Program ε σ α) (after : α → σ → Prop)
    (raised : σ → Prop) : Prop :=
  ∀ state, before state →
    match program state with
    | (.ok value, reached) => after value reached
    | (.error _, reached) => raised reached

variable {before : σ → Prop} {middle : α → σ → Prop} {after : β → σ → Prop} {raised : σ → Prop}

namespace Triple

theorem pure {value : α} (holds : ∀ state, before state → middle value state) :
    Triple before (Pure.pure value : Program ε σ α) middle raised := holds

theorem bind {program : Program ε σ α} {next : α → Program ε σ β}
    (first : Triple before program middle raised)
    (later : ∀ value, Triple (middle value) (next value) after raised) :
    Triple before (program >>= next) after raised := by
  intro state holds
  have reached := first state holds
  change match (match program state with
    | (.ok value, reached) => next value reached
    | (.error error, reached) => (.error error, reached)) with
    | (.ok value, reached) => after value reached
    | (.error _, reached) => raised reached
  rcases ran : program state with ⟨result, final⟩
  rw [ran] at reached
  cases result with
  | error error => exact reached
  | ok value => exact later value final reached

theorem strengthen {stronger : σ → Prop} {program : Program ε σ α}
    (triple : Triple before program middle raised)
    (implies : ∀ state, stronger state → before state) :
    Triple stronger program middle raised :=
  fun state holds => triple state (implies state holds)

theorem weaken {weaker : α → σ → Prop} {program : Program ε σ α}
    (triple : Triple before program middle raised)
    (implies : ∀ value state, middle value state → weaker value state) :
    Triple before program weaker raised := by
  intro state holds
  have reached := triple state holds
  rcases ran : program state with ⟨result, final⟩
  rw [ran] at reached
  cases result with
  | error error => exact reached
  | ok value => exact implies value final reached

theorem raising {weaker : σ → Prop} {program : Program ε σ α}
    (triple : Triple before program middle raised)
    (implies : ∀ state, raised state → weaker state) :
    Triple before program middle weaker := by
  intro state holds
  have reached := triple state holds
  rcases ran : program state with ⟨result, final⟩
  rw [ran] at reached
  cases result with
  | error error => exact implies final reached
  | ok value => exact reached

theorem get {next : σ → Program ε σ β}
    (later : ∀ seen, Triple (fun state => before state ∧ state = seen) (next seen) after raised) :
    Triple before (Program.get >>= next) after raised :=
  fun state holds => later state state ⟨holds, rfl⟩

theorem modify {change : σ → σ} {after : Unit → σ → Prop}
    (holds : ∀ state, before state → after () (change state)) :
    Triple before (Program.modify change : Program ε σ Unit) after raised := holds

theorem ofExcept {value : Except ε α}
    (returned : ∀ result, value = .ok result → ∀ state, before state → middle result state)
    (implies : ∀ state, before state → raised state) :
    Triple before (Program.ofExcept value) middle raised := by
  intro state holds
  cases same : value with
  | error error => exact implies state holds
  | ok result => exact returned result same state holds

theorem compute (value : Except ε α) (implies : ∀ state, before state → raised state) :
    Triple before (Program.ofExcept value) (fun _ => before) raised :=
  ofExcept (fun _ _ _ holds => holds) implies

theorem raise {error : ε} (implies : ∀ state, before state → raised state) :
    Triple before (Program.raise error : Program ε σ α) middle raised := implies

theorem onlyIf {test : Bool} {program : Program ε σ Unit} {after : Unit → σ → Prop}
    (taken : test = true → Triple before program after raised)
    (skipped : test = false → ∀ state, before state → after () state) :
    Triple before (Program.onlyIf test program) after raised := by
  cases test with
  | true => exact taken rfl
  | false => exact skipped rfl

theorem each {ι : Type} {turn : ι → Program ε σ Unit} {items : List ι}
    (kept : ∀ item ∈ items, Triple before (turn item) (fun _ => before) raised) :
    Triple before (Program.each turn items) (fun _ => before) raised := by
  induction items with
  | nil => exact fun _ holds => holds
  | cons item rest ih =>
    refine bind (kept item (List.mem_cons_self ..)) (fun _ => ?_)
    exact ih (fun other member => kept other (List.mem_cons_of_mem _ member))

end Triple

end Program

end OpenWebui
