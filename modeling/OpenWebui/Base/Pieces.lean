import Mathlib.Data.List.Basic

/-! Texts with a role, and marks between them. -/

namespace OpenWebui

universe u v

inductive Piece (ρ : Type u) (α : Type v) where
  | text (role : ρ) (text : List Char)
  | mark (value : α)

namespace Piece

variable {ρ : Type u} {α : Type v}

inductive Carries : List (Piece ρ α) → List (Piece ρ α) → Prop where
  | done : Carries [] []
  | mark (value : α) {pieces kept : List (Piece ρ α)} (rest : Carries pieces kept) :
      Carries (.mark value :: pieces) (.mark value :: kept)
  | blank (role : ρ) {pieces kept : List (Piece ρ α)} (rest : Carries pieces kept) :
      Carries pieces (.text role [] :: kept)
  | part {role : ρ} (text : List Char) {after : List Char} {pieces kept : List (Piece ρ α)}
      (rest : Carries pieces (.text role after :: kept)) :
      Carries (.text role text :: pieces) (.text role (text ++ after) :: kept)
  | line {role : ρ} {after : List Char} {pieces kept : List (Piece ρ α)}
      (rest : Carries pieces (.text role after :: kept)) :
      Carries pieces (.text role ('\n' :: after) :: kept)

theorem Carries.text (role : ρ) (text : List Char) {pieces kept : List (Piece ρ α)}
    (rest : Carries pieces kept) : Carries (.text role text :: pieces) (.text role text :: kept) := by
  have whole := Carries.part text (Carries.blank role rest)
  rwa [List.append_nil] at whole

theorem Carries.refl (pieces : List (Piece ρ α)) : Carries pieces pieces := by
  induction pieces with
  | nil => exact .done
  | cons piece rest ih =>
    cases piece with
    | text role chars => exact .text role chars ih
    | mark value => exact .mark value ih

theorem Carries.append {first kept second others : List (Piece ρ α)} (one : Carries first kept)
    (two : Carries second others) : Carries (first ++ second) (kept ++ others) := by
  induction one with
  | done => exact two
  | mark value _ ih => exact .mark value ih
  | blank role _ ih => exact .blank role ih
  | part text _ ih => exact .part text ih
  | line _ ih => exact .line ih

theorem Carries.flatMap {β : Type*} {source kept : β → List (Piece ρ α)} {items : List β}
    (each : ∀ item ∈ items, Carries (source item) (kept item)) :
    Carries (items.flatMap source) (items.flatMap kept) := by
  induction items with
  | nil => exact .done
  | cons item rest ih =>
    rw [List.flatMap_cons, List.flatMap_cons]
    exact (each item List.mem_cons_self).append
      (ih (fun other member => each other (List.mem_cons_of_mem _ member)))

def texts (role : ρ) (texts : List (List Char)) : List (Piece ρ α) :=
  (texts.filter (fun text => !text.isEmpty)).map (Piece.text role)

theorem carries_lines (role : ρ) (lines : List (List Char)) :
    Carries (texts role lines : List (Piece ρ α)) [.text role (['\n'].intercalate lines)] := by
  induction lines with
  | nil => exact .blank role .done
  | cons line rest ih =>
    have first : ∀ {after : List Char}, Carries (texts role rest : List (Piece ρ α)) [.text role after] →
        Carries (texts role (line :: rest) : List (Piece ρ α)) [.text role (line ++ after)] := by
      intro after later
      cases line with
      | nil => exact later
      | cons char chars => exact .part (char :: chars) later
    cases rest with
    | nil =>
      have whole := first (.blank role .done)
      rw [List.append_nil] at whole
      rw [List.intercalate_singleton]
      exact whole
    | cons second others =>
      rw [List.intercalate_cons_cons, List.append_assoc]
      exact first (.line ih)

def tokens : Piece ρ α → List (Char ⊕ α)
  | .text _ chars => chars.map .inl
  | .mark value => [.inr value]

def flat (pieces : List (Piece ρ α)) : List (Char ⊕ α) := pieces.flatMap tokens

@[simp] theorem flat_nil : flat ([] : List (Piece ρ α)) = [] := rfl

@[simp] theorem flat_cons (piece : Piece ρ α) (rest : List (Piece ρ α)) :
    flat (piece :: rest) = piece.tokens ++ flat rest := rfl

@[simp] theorem flat_append (first second : List (Piece ρ α)) :
    flat (first ++ second) = flat first ++ flat second := List.flatMap_append

theorem Carries.sublist {pieces kept : List (Piece ρ α)} (carries : Carries pieces kept) :
    (flat pieces).Sublist (flat kept) := by
  induction carries with
  | done => exact List.Sublist.refl _
  | mark value _ ih => exact ih.cons_cons _
  | blank role _ ih => exact ih
  | part text _ ih =>
    rw [flat_cons, tokens] at ih ⊢
    rw [flat_cons, tokens, List.map_append, List.append_assoc]
    exact ih.append_left _
  | line _ ih => exact ih.cons _

theorem Carries.filter {shown : Char ⊕ α → Bool} (breaks : shown (.inl '\n') = false)
    {pieces kept : List (Piece ρ α)} (carries : Carries pieces kept) :
    (flat pieces).filter shown = (flat kept).filter shown := by
  induction carries with
  | done => rfl
  | mark value _ ih =>
    rw [flat_cons, flat_cons, List.filter_append, List.filter_append, ih]
  | blank role _ ih => exact ih
  | part text _ ih =>
    rw [flat_cons, tokens, List.filter_append] at ih
    rw [flat_cons, flat_cons, tokens, tokens, List.filter_append, List.filter_append, List.map_append,
      List.filter_append, ih, List.append_assoc]
  | line _ ih =>
    rw [flat_cons, tokens, List.map_cons, List.cons_append, List.filter_cons_of_neg (by rw [breaks]; simp)]
    exact ih

theorem Carries.countP {shown : Char ⊕ α → Bool} (breaks : shown (.inl '\n') = false)
    {pieces kept : List (Piece ρ α)} (carries : Carries pieces kept) :
    (flat pieces).countP shown = (flat kept).countP shown := by
  rw [List.countP_eq_length_filter, List.countP_eq_length_filter, carries.filter breaks]

theorem sublist_of_stop {τ : Type*} {kind : τ → Bool} {before wider : List τ} {stop : τ}
    {stops later more : List τ} (none_before : before.countP kind = 0)
    (none_wider : wider.countP kind = 0) (stopping : kind stop = true)
    (same : later.countP kind = more.countP kind)
    (within : (before ++ (stop :: stops ++ later)).Sublist (wider ++ (stop :: stops ++ more))) :
    before.Sublist wider ∧ later.Sublist more := by
  obtain ⟨front, back, parts, inside, after⟩ := List.sublist_append_iff.mp within
  have none_front : front.countP kind = 0 := by
    have fewer := inside.countP_le (p := kind)
    omega
  rcases List.append_eq_append_iff.mp parts with ⟨middle, rfl, rest⟩ | ⟨middle, rfl, rest⟩
  · -- what matches before the stop would have the stop in it, unless it ends there
    cases middle with
    | nil =>
      rw [List.nil_append] at rest
      rw [List.append_nil] at inside
      rw [← rest] at after
      exact ⟨inside, (List.append_sublist_append_left _).mp after⟩
    | cons first others =>
      obtain ⟨rfl, _⟩ := List.cons.inj rest
      rw [List.countP_append, List.countP_cons_of_pos stopping] at none_front
      omega
  · cases middle with
    | nil =>
      rw [List.nil_append] at rest
      rw [List.append_nil]
      rw [rest] at after
      exact ⟨inside, (List.append_sublist_append_left _).mp after⟩
    | cons first others =>
      -- what is left before the stop does not match the stop, so the stop is matched later
      have plain : kind first = false := by
        rw [List.countP_append, Nat.add_eq_zero_iff, List.countP_cons] at none_before
        by_cases kept : kind first = true
        · rw [if_pos kept] at none_before
          omega
        · exact Bool.eq_false_iff.mpr kept
      have later_on : back.Sublist (stops ++ more) := by
        rw [rest, List.cons_append] at after ⊢
        cases after with
        | cons _ skipped => exact skipped
        | cons_cons _ _ =>
          rw [stopping] at plain
          cases plain
      have fewer := later_on.countP_le (p := kind)
      rw [rest, List.countP_append, List.countP_append, List.countP_append,
        List.countP_cons_of_pos stopping] at fewer
      omega

end Piece

end OpenWebui
