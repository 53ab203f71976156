/-! The leftmost match in a list of what matches at the front of one. -/

namespace OpenWebui.Search

universe u v

variable {α : Type u} {γ : Type v}

abbrev Front (α : Type u) (γ : Type v) := List α → Option (γ × List α)

def leftmost (front : Front α γ) : List α → Option (List α × γ × List α)
  | [] => (front []).map (fun found => ([], found))
  | item :: rest =>
    match front (item :: rest) with
    | some found => some ([], found)
    | none => (leftmost front rest).map (fun found => (item :: found.1, found.2))

/-- A matcher that reads what it matches and nothing behind it. -/
def Reads (front : Front α γ) : Prop :=
  ∀ text value rest, front text = some (value, rest) →
    ∃ matched, text = matched ++ rest ∧ ∀ more, front (matched ++ more) = some (value, more)

variable {front : Front α γ}

theorem leftmost_of_front {text rest : List α} {value : γ} (here : front text = some (value, rest)) :
    leftmost front text = some ([], value, rest) := by
  cases text with
  | nil => rw [leftmost, here, Option.map_some]
  | cons item tail => simp only [leftmost, here]

theorem front_eq_none {text : List α} (nowhere : leftmost front text = none) : front text = none := by
  cases here : front text with
  | none => rfl
  | some found => cases (leftmost_of_front here).symm.trans nowhere

theorem leftmost_cons_of_none {item : α} {rest : List α} (here : front (item :: rest) = none) :
    leftmost front (item :: rest) =
      (leftmost front rest).map (fun found => (item :: found.1, found.2)) := by
  simp only [leftmost, here]

theorem leftmost_eq_none {text : List α} :
    leftmost front text = none ↔ ∀ before after, text = before ++ after → front after = none := by
  induction text with
  | nil =>
    rw [leftmost, Option.map_eq_none_iff]
    constructor
    · intro nowhere before after split
      rw [(List.append_eq_nil_iff.mp split.symm).2]
      exact nowhere
    · exact fun nowhere => nowhere [] [] rfl
  | cons item rest ih =>
    constructor
    · intro nowhere before after split
      have here := front_eq_none nowhere
      rw [leftmost_cons_of_none here, Option.map_eq_none_iff, ih] at nowhere
      cases before with
      | nil =>
        rw [List.nil_append] at split
        exact split ▸ here
      | cons first later =>
        obtain ⟨rfl, remains⟩ := List.cons.inj split
        exact nowhere later after remains
    · intro nowhere
      rw [leftmost_cons_of_none (nowhere [] (item :: rest) rfl), Option.map_eq_none_iff, ih]
      intro before after split
      exact nowhere (item :: before) after (by rw [split]; rfl)

theorem leftmost_append {before rest after : List α} {value : γ}
    (none_before : ∀ first later, before = first ++ later → later ≠ [] → front (later ++ rest) = none)
    (here : front rest = some (value, after)) :
    leftmost front (before ++ rest) = some (before, value, after) := by
  induction before with
  | nil => exact leftmost_of_front here
  | cons item before ih =>
    have passed : front (item :: (before ++ rest)) = none :=
      none_before [] (item :: before) rfl (List.cons_ne_nil _ _)
    rw [List.cons_append, leftmost_cons_of_none passed, ih, Option.map_some]
    intro first later split filled
    exact none_before (item :: first) later (by rw [split]; rfl) filled

theorem leftmost_eq_some {text before after : List α} {value : γ}
    (found : leftmost front text = some (before, value, after)) :
    ∃ rest, text = before ++ rest ∧ front rest = some (value, after) ∧
      ∀ first later, before = first ++ later → later ≠ [] → front (later ++ rest) = none := by
  induction text generalizing before with
  | nil =>
    rw [leftmost] at found
    obtain ⟨⟨_, _⟩, here, same⟩ := Option.map_eq_some_iff.mp found
    cases same
    refine ⟨[], rfl, here, ?_⟩
    intro first later split filled
    exact absurd (List.append_eq_nil_iff.mp split.symm).2 filled
  | cons item rest ih =>
    cases here : front (item :: rest) with
    | some first =>
      cases (leftmost_of_front here).symm.trans found
      refine ⟨item :: rest, rfl, here, ?_⟩
      intro first later split filled
      exact absurd (List.append_eq_nil_iff.mp split.symm).2 filled
    | none =>
      rw [leftmost_cons_of_none here] at found
      obtain ⟨⟨shorter, _⟩, later, same⟩ := Option.map_eq_some_iff.mp found
      cases same
      obtain ⟨tail, rfl, reads, none_before⟩ := ih later
      refine ⟨tail, rfl, reads, ?_⟩
      intro first later split filled
      cases first with
      | nil =>
        rw [List.nil_append] at split
        exact split ▸ here
      | cons head first => exact none_before first later (List.cons.inj split).2 filled

theorem leftmost_drop {text before after : List α} {value : γ}
    (found : leftmost front text = some (before, value, after)) {start : Nat}
    (reached : start ≤ before.length) :
    leftmost front (text.drop start) = some (before.drop start, value, after) := by
  obtain ⟨rest, rfl, here, none_before⟩ := leftmost_eq_some found
  rw [List.drop_append_of_le_length reached]
  refine leftmost_append ?_ here
  intro first later split filled
  apply none_before (before.take start ++ first) later _ filled
  rw [List.append_assoc, ← split, List.take_append_drop]

theorem leftmost_drop_eq_none {text : List α} (nowhere : leftmost front text = none)
    (start : Nat) : leftmost front (text.drop start) = none := by
  rw [leftmost_eq_none] at nowhere ⊢
  intro before after split
  apply nowhere (text.take start ++ before) after
  rw [List.append_assoc, ← split, List.take_append_drop]

section Literal

variable [DecidableEq α]

def literal (needle : List α) : Front α Unit := fun text =>
  if needle <+: text then some ((), text.drop needle.length) else none

variable {needle : List α}

theorem literal_append (rest : List α) : literal needle (needle ++ rest) = some ((), rest) := by
  simp [literal]

theorem literal_eq_some {text rest : List α} :
    literal needle text = some ((), rest) ↔ text = needle ++ rest := by
  constructor
  · intro here
    unfold literal at here
    split at here
    · rename_i stands
      obtain ⟨more, rfl⟩ := stands
      rw [List.drop_left] at here
      cases here
      rfl
    · cases here
  · rintro rfl
    exact literal_append rest

end Literal

end OpenWebui.Search
