import Mathlib.Data.List.Forall2
import Mathlib.Data.List.Infix

/-! The `LIKE` of a database that compares ASCII letters without their case: `%` stands for any
text, `_` for any character, and no character escapes them. -/

namespace OpenWebui.Like

/-- One character of a pattern, other than `%`, and one of a text. -/
def Fits (sign char : Char) : Prop := sign = '_' ∨ sign.toLower = char.toLower

instance (sign char : Char) : Decidable (Fits sign char) := inferInstanceAs (Decidable (_ ∨ _))

/-- A text that a character other than `%` begins. -/
def takeChar (sign : Char) (remains : List Char → Bool) : List Char → Bool
  | [] => false
  | char :: rest => decide (Fits sign char) && remains rest

def like : List Char → List Char → Bool
  | [] => List.isEmpty
  | sign :: pattern =>
    if sign = '%' then fun text => text.tails.any (like pattern) else takeChar sign (like pattern)

theorem like_percent {pattern text : List Char} :
    like ('%' :: pattern) text = true ↔ ∃ before rest, text = before ++ rest ∧
      like pattern rest = true := by
  rw [like, if_pos rfl, List.any_eq_true]
  constructor
  · rintro ⟨rest, tail, found⟩
    obtain ⟨before, rfl⟩ := (List.mem_tails rest text).mp tail
    exact ⟨before, rest, rfl, found⟩
  · rintro ⟨before, rest, rfl, found⟩
    exact ⟨rest, (List.mem_tails rest _).mpr (List.suffix_append before rest), found⟩

theorem like_append {part : List Char} (fixed : '%' ∉ part) {pattern text : List Char} :
    like (part ++ pattern) text = true ↔ ∃ found rest, text = found ++ rest ∧
      List.Forall₂ Fits part found ∧ like pattern rest = true := by
  induction part generalizing text with
  | nil => simp
  | cons sign part ih =>
    rw [List.mem_cons, not_or] at fixed
    rw [List.cons_append, like, if_neg (Ne.symm fixed.1)]
    cases text with
    | nil =>
      simp only [takeChar, Bool.false_eq_true, false_iff]
      rintro ⟨found, rest, split, fits, _⟩
      obtain ⟨rfl, _⟩ := List.append_eq_nil_iff.mp split.symm
      cases fits
    | cons char text =>
      simp only [takeChar, Bool.and_eq_true, decide_eq_true_eq, ih fixed.2]
      constructor
      · rintro ⟨first, found, rest, rfl, fits, remains⟩
        exact ⟨char :: found, rest, rfl, List.Forall₂.cons first fits, remains⟩
      · rintro ⟨found, rest, split, fits, remains⟩
        cases fits with
        | cons first fits =>
          obtain ⟨rfl, rfl⟩ := List.cons.inj split
          exact ⟨first, _, rest, rfl, fits, remains⟩

theorem like_self {part pattern rest : List Char} (found : like pattern rest = true) :
    like (part ++ pattern) (part ++ rest) = true := by
  induction part with
  | nil => exact found
  | cons sign part ih =>
    by_cases percent : sign = '%'
    · subst percent
      exact like_percent.mpr ⟨['%'], part ++ rest, rfl, ih⟩
    · rw [List.cons_append, like, if_neg percent, List.cons_append, takeChar, ih]
      simp [Fits]

theorem like_contains {part : List Char} (fixed : '%' ∉ part) {text : List Char} :
    like ('%' :: (part ++ ['%'])) text = true ↔ ∃ before found later,
      text = before ++ found ++ later ∧ List.Forall₂ Fits part found := by
  rw [like_percent]
  constructor
  · rintro ⟨before, rest, rfl, found⟩
    obtain ⟨inside, later, rfl, fits, _⟩ := (like_append fixed).mp found
    exact ⟨before, inside, later, (List.append_assoc _ _ _).symm, fits⟩
  · rintro ⟨before, inside, later, rfl, fits⟩
    refine ⟨before, inside ++ later, List.append_assoc _ _ _, (like_append fixed).mpr ?_⟩
    refine ⟨inside, later, rfl, fits, like_percent.mpr ⟨later, [], ?_, rfl⟩⟩
    exact (List.append_nil later).symm

def lower (text : List Char) : List Char := text.map Char.toLower

@[simp] theorem lower_nil : lower [] = [] := rfl

@[simp] theorem lower_cons (char : Char) (text : List Char) :
    lower (char :: text) = char.toLower :: lower text := rfl

@[simp] theorem lower_append (first second : List Char) :
    lower (first ++ second) = lower first ++ lower second := List.map_append

theorem forall₂_fits_of_lower {part found : List Char} (same : lower part = lower found) :
    List.Forall₂ Fits part found := by
  induction part generalizing found with
  | nil =>
    obtain rfl := List.map_eq_nil_iff.mp same.symm
    exact List.Forall₂.nil
  | cons sign part ih =>
    obtain ⟨char, rest, rfl, first, remains⟩ := List.map_eq_cons_iff.mp same.symm
    exact List.Forall₂.cons (Or.inr first.symm) (ih remains.symm)

theorem forall₂_fits_iff {part : List Char} (plain : '_' ∉ part) {found : List Char} :
    List.Forall₂ Fits part found ↔ lower part = lower found := by
  refine ⟨fun fits => ?_, forall₂_fits_of_lower⟩
  induction fits with
  | nil => rfl
  | cons first _ ih =>
    rw [List.mem_cons, not_or] at plain
    rw [lower_cons, lower_cons, ih plain.2]
    rcases first with wild | same
    · exact absurd wild.symm plain.1
    · rw [same]

end OpenWebui.Like
