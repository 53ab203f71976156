import Mathlib.Data.List.Basic

/-! Texts that occur in contents one after the other, none over another. -/

namespace OpenWebui

universe u

variable {α : Type u}

inductive Occur : List (List α) → List (List α) → Prop where
  | done : Occur [] []
  | empty {texts contents : List (List α)} (rest : Occur texts contents) : Occur ([] :: texts) contents
  | skip (content : List α) {texts contents : List (List α)} (rest : Occur texts contents) :
      Occur texts (content :: contents)
  | here (before text : List α) {after : List α} {texts contents : List (List α)}
      (rest : Occur texts (after :: contents)) : Occur (text :: texts) ((before ++ (text ++ after)) :: contents)

namespace Occur

variable {texts contents : List (List α)}

theorem none (contents : List (List α)) : Occur [] contents := by
  induction contents with
  | nil => exact .done
  | cons content rest ih => exact .skip content ih

theorem whole (text : List α) (rest : Occur texts contents) : Occur (text :: texts) (text :: contents) := by
  have found := Occur.here [] text (.skip [] rest)
  rwa [List.append_nil] at found

theorem append {first second others : List (List α)} (one : Occur first contents)
    (two : Occur second others) : Occur (first ++ second) (contents ++ others) := by
  induction one with
  | done => exact two
  | empty _ ih => exact .empty ih
  | skip content _ ih => exact .skip content ih
  | here before text _ ih => exact .here before text ih

theorem flatMap {β : Type*} {source held : β → List (List α)} {items : List β}
    (each : ∀ item ∈ items, Occur (source item) (held item)) :
    Occur (items.flatMap source) (items.flatMap held) := by
  induction items with
  | nil => exact .done
  | cons item rest ih =>
    rw [List.flatMap_cons, List.flatMap_cons]
    exact (each item List.mem_cons_self).append
      (ih (fun other member => each other (List.mem_cons_of_mem _ member)))

theorem prepend (front : List α) {content : List α} (occur : Occur texts (content :: contents)) :
    Occur texts ((front ++ content) :: contents) := by
  generalize held : content :: contents = all at occur
  induction occur generalizing content contents with
  | done => cases held
  | empty _ ih => exact .empty (ih held)
  | skip _ rest _ =>
    obtain ⟨rfl, rfl⟩ := List.cons.inj held
    exact .skip _ rest
  | here before text rest _ =>
    obtain ⟨rfl, rfl⟩ := List.cons.inj held
    rw [← List.append_assoc]
    exact .here (front ++ before) text rest

theorem join (separator : List α) (occur : Occur texts contents) :
    Occur texts [separator.intercalate contents] := by
  induction occur with
  | done => exact none _
  | empty _ ih => exact .empty ih
  | @skip content texts contents _ ih =>
    cases contents with
    | nil =>
      rw [List.intercalate_singleton]
      rw [List.intercalate_nil] at ih
      have more := ih.prepend content
      rwa [List.append_nil] at more
    | cons second others =>
      rw [List.intercalate_cons_cons]
      exact ih.prepend (content ++ separator)
  | @here before text after texts contents _ ih =>
    cases contents with
    | nil =>
      rw [List.intercalate_singleton] at ih ⊢
      exact .here before text ih
    | cons second others =>
      rw [List.intercalate_cons_cons] at ih ⊢
      have found := Occur.here before text ih
      simpa only [List.append_assoc] using found

theorem sublist (occur : Occur texts contents) : texts.flatten.Sublist contents.flatten := by
  induction occur with
  | done => exact List.Sublist.refl _
  | empty _ ih => exact ih
  | skip content _ ih =>
    rw [List.flatten_cons]
    exact ih.trans (List.sublist_append_right _ _)
  | here before text _ ih =>
    rw [List.flatten_cons] at ih ⊢
    rw [List.flatten_cons, List.append_assoc, List.append_assoc]
    exact (ih.append_left text).trans (List.sublist_append_right _ _)

theorem countP_join {shown : α → Bool} {separator : List α}
    (hidden : ∀ char ∈ separator, shown char = false) (contents : List (List α)) :
    (separator.intercalate contents).countP shown = contents.flatten.countP shown := by
  have none : separator.countP shown = 0 :=
    List.countP_eq_zero.mpr (fun char member => by rw [hidden char member]; exact Bool.false_ne_true)
  induction contents with
  | nil => rfl
  | cons content rest ih =>
    rw [List.flatten_cons, List.countP_append, ← ih]
    cases rest with
    | nil => simp
    | cons second others => rw [List.intercalate_cons_cons, List.countP_append, List.countP_append, none,
        Nat.add_zero]

end Occur

end OpenWebui
