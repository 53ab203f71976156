import Mathlib.Data.List.Basic
import Mathlib.Logic.Function.Basic

/-! Replacing patterns in a text: one after the other, and all at once. -/

namespace OpenWebui.Substitution

universe u

abbrev Tokens (α : Type u) := List (α ⊕ List α)

variable {α : Type u}

def fill (value : List α → List α) (read : Tokens α) : List α :=
  read.flatMap (Sum.elim (fun item => [item]) value)

@[simp] theorem fill_nil (value : List α → List α) : fill value [] = [] := rfl

@[simp] theorem fill_item (value : List α → List α) (item : α) (read : Tokens α) :
    fill value (.inl item :: read) = item :: fill value read := rfl

@[simp] theorem fill_hole (value : List α → List α) (pattern : List α) (read : Tokens α) :
    fill value (.inr pattern :: read) = value pattern ++ fill value read := rfl

variable [DecidableEq α]

def tokens (patterns : List (List α)) : Nat → List α → Tokens α
  | _, [] => []
  | skip + 1, _ :: rest => tokens patterns skip rest
  | 0, item :: rest =>
    match patterns.find? (fun pattern => pattern.isPrefixOf (item :: rest)) with
    | some pattern => .inr pattern :: tokens patterns (pattern.length - 1) rest
    | none => .inl item :: tokens patterns 0 rest

def replace (pattern value text : List α) : List α := fill (fun _ => value) (tokens [pattern] 0 text)

def substitute (patterns : List (List α)) (value : List α → List α) (text : List α) : List α :=
  fill value (tokens patterns 0 text)

def occurrences (pattern : List α) : List α → Nat
  | [] => 0
  | item :: rest =>
    (if pattern <+: item :: rest then 1 else 0) + occurrences pattern rest

section Reading

variable {patterns : List (List α)}

@[simp] theorem tokens_nil (skip : Nat) : tokens patterns skip [] = [] := by
  cases skip <;> rfl

theorem tokens_skip (skip : Nat) (text : List α) :
    tokens patterns skip text = tokens patterns 0 (text.drop skip) := by
  induction text generalizing skip with
  | nil => simp
  | cons item rest ih =>
    cases skip with
    | zero => rfl
    | succ skip => exact ih skip

theorem tokens_of_found {pattern text : List α} (filled : pattern ≠ [])
    (found : patterns.find? (fun other => other.isPrefixOf (pattern ++ text)) = some pattern) :
    tokens patterns 0 (pattern ++ text) = .inr pattern :: tokens patterns 0 text := by
  obtain ⟨item, rest, rfl⟩ := List.exists_cons_of_ne_nil filled
  rw [List.cons_append] at found ⊢
  rw [tokens, found]
  dsimp only
  rw [tokens_skip, List.length_cons, Nat.add_sub_cancel, List.drop_left]

theorem tokens_of_none {item : α} {rest : List α}
    (none : patterns.find? (fun pattern => pattern.isPrefixOf (item :: rest)) = none) :
    tokens patterns 0 (item :: rest) = .inl item :: tokens patterns 0 rest := by
  rw [tokens, none]

theorem reading_induction {motive : List α → Prop} (filled : ∀ pattern ∈ patterns, pattern ≠ [])
    (nil : motive [])
    (hole : ∀ pattern rest, pattern ∈ patterns →
      patterns.find? (fun other => other.isPrefixOf (pattern ++ rest)) = some pattern →
      motive rest → motive (pattern ++ rest))
    (item : ∀ item rest,
      patterns.find? (fun pattern => pattern.isPrefixOf (item :: rest)) = none →
      motive rest → motive (item :: rest))
    (text : List α) : motive text := by
  induction length : text.length using Nat.strongRecOn generalizing text with
  | _ size ih =>
    cases text with
    | nil => exact nil
    | cons first rest =>
      cases found : patterns.find? (fun pattern => pattern.isPrefixOf (first :: rest)) with
      | none =>
        refine item first rest found (ih rest.length ?_ rest rfl)
        rw [← length, List.length_cons]
        exact Nat.lt_succ_self _
      | some pattern =>
        have member := List.mem_of_find?_eq_some found
        have front := List.find?_some found
        obtain ⟨after, split⟩ := List.isPrefixOf_iff_prefix.mp front
        rw [← split] at found ⊢
        refine hole pattern after member found (ih after.length ?_ after rfl)
        have some_items := List.length_pos_iff.mpr (filled pattern member)
        rw [← length, ← split, List.length_append]
        omega

theorem fill_tokens (filled : ∀ pattern ∈ patterns, pattern ≠ []) (text : List α) :
    fill id (tokens patterns 0 text) = text := by
  induction text using reading_induction filled with
  | nil => rw [tokens_nil, fill_nil]
  | hole pattern rest member found ih =>
    rw [tokens_of_found (filled pattern member) found, fill_hole, ih, id]
  | item item rest none ih => rw [tokens_of_none none, fill_item, ih]

end Reading

section Strays

variable {pattern : List α}

def own (pattern : List α) : Tokens α → Nat
  | [] => 0
  | .inl _ :: rest => own pattern rest
  | .inr other :: rest => (if other = pattern then 1 else 0) + own pattern rest

theorem occurrences_append (before after : List α) :
    occurrences pattern after ≤ occurrences pattern (before ++ after) := by
  induction before with
  | nil => exact Nat.le_refl _
  | cons item rest ih =>
    rw [List.cons_append, occurrences]
    omega

theorem occurrences_self_append (filled : pattern ≠ []) (after : List α) :
    occurrences pattern after + 1 ≤ occurrences pattern (pattern ++ after) := by
  obtain ⟨item, rest, rfl⟩ := List.exists_cons_of_ne_nil filled
  have inside := @occurrences_append _ _ (item :: rest) rest after
  have front : item :: rest <+: item :: (rest ++ after) := List.prefix_append (item :: rest) after
  rw [List.cons_append, occurrences, if_pos front]
  omega

theorem own_le (filled : pattern ≠ []) {value : List α → List α} (kept : value pattern = pattern)
    (read : Tokens α) : own pattern read ≤ occurrences pattern (fill value read) := by
  induction read with
  | nil => exact Nat.le_refl _
  | cons token rest ih =>
    cases token with
    | inl item =>
      rw [own, fill_item, occurrences]
      omega
    | inr other =>
      rw [own, fill_hole]
      by_cases same : other = pattern
      · subst same
        have more := occurrences_self_append filled (fill value rest)
        rw [if_pos rfl, kept]
        omega
      · have more := @occurrences_append _ _ pattern (value other) (fill value rest)
        rw [if_neg same]
        omega

def spell (pattern : List α) (value : List α → List α) (read : Tokens α) : Tokens α :=
  read.flatMap (Sum.elim (fun item => [.inl item])
    (fun other => if other = pattern then [.inr pattern] else (value other).map .inl))

theorem find_single (text : List α) :
    [pattern].find? (fun other => other.isPrefixOf text) =
      if pattern <+: text then some pattern else none := by
  rw [List.find?_singleton]
  simp only [List.isPrefixOf_iff_prefix]

theorem tokens_append_of_count {before after : List α}
    (count : occurrences pattern (before ++ after) = occurrences pattern after) :
    tokens [pattern] 0 (before ++ after) = before.map .inl ++ tokens [pattern] 0 after := by
  induction before with
  | nil => rfl
  | cons item rest ih =>
    have inside := @occurrences_append _ _ pattern rest after
    rw [List.cons_append, occurrences] at count
    have absent : ¬ pattern <+: item :: (rest ++ after) := by
      intro present
      rw [if_pos present] at count
      omega
    rw [if_neg absent, Nat.zero_add] at count
    rw [List.cons_append, tokens_of_none (by rw [find_single, if_neg absent]), ih count]
    rfl

theorem tokens_fill (filled : pattern ≠ []) {value : List α → List α}
    (kept : value pattern = pattern) {read : Tokens α}
    (count : occurrences pattern (fill value read) = own pattern read) :
    tokens [pattern] 0 (fill value read) = spell pattern value read := by
  induction read with
  | nil => rfl
  | cons token rest ih =>
    have least := own_le filled kept rest
    cases token with
    | inl item =>
      rw [fill_item, own] at count
      have all : occurrences pattern (fill value rest) = own pattern rest := by
        rw [occurrences] at count
        omega
      have apart : occurrences pattern ([item] ++ fill value rest) =
          occurrences pattern (fill value rest) := by
        rw [List.singleton_append, count, all]
      have read_item := tokens_append_of_count apart
      rw [List.singleton_append] at read_item
      rw [fill_item, read_item, ih all]
      rfl
    | inr other =>
      rw [fill_hole, own] at count
      rw [fill_hole]
      by_cases same : other = pattern
      · subst same
        have more := occurrences_self_append filled (fill value rest)
        rw [if_pos rfl, kept] at count
        have all : occurrences other (fill value rest) = own other rest := by omega
        rw [kept, tokens_of_found filled (by rw [find_single, if_pos (List.prefix_append _ _)]),
          ih all, spell, spell, List.flatMap_cons, Sum.elim_inr, if_pos rfl]
        rfl
      · have more := @occurrences_append _ _ pattern (value other) (fill value rest)
        rw [if_neg same, Nat.zero_add] at count
        have all : occurrences pattern (fill value rest) = own pattern rest := by omega
        rw [tokens_append_of_count (count.trans all.symm), ih all, spell, spell, List.flatMap_cons,
          Sum.elim_inr, if_neg same]

theorem fill_spell (pattern new : List α) (value : List α → List α) (read : Tokens α) :
    fill (fun _ => new) (spell pattern value read) =
      fill (Function.update value pattern new) read := by
  induction read with
  | nil => rfl
  | cons token rest ih =>
    rw [spell, List.flatMap_cons, fill, List.flatMap_append, ← fill, ← fill, ← spell, ih]
    cases token with
    | inl item => rfl
    | inr other =>
      rw [fill_hole, Sum.elim_inr]
      by_cases same : other = pattern
      · subst same
        rw [if_pos rfl, Function.update_self]
        rw [fill_hole, fill_nil, List.append_nil]
      · rw [if_neg same, Function.update_of_ne same]
        congr 1
        simp [fill, List.flatMap_map]

theorem replace_fill (filled : pattern ≠ []) {value : List α → List α}
    (kept : value pattern = pattern) {read : Tokens α}
    (count : occurrences pattern (fill value read) = own pattern read) (new : List α) :
    replace pattern new (fill value read) = fill (Function.update value pattern new) read := by
  rw [replace, tokens_fill filled kept count, fill_spell]

theorem replace_of_absent {text : List α} (absent : occurrences pattern text = 0) (new : List α) : replace pattern new text = text := by
  have items := @tokens_append_of_count _ _ pattern text [] (by rw [List.append_nil, absent]; rfl)
  rw [List.append_nil, tokens_nil, List.append_nil] at items
  rw [replace, items]
  simp [fill, List.flatMap_map]

end Strays

section Apart

variable {patterns : List (List α)}

/-- No pattern starts within another, not even one that goes on behind it. -/
def Apart (patterns : List (List α)) : Prop :=
  ∀ first ∈ patterns, ∀ second ∈ patterns, ∀ i < first.length, first ≠ second ∨ i ≠ 0 →
    ¬ first.drop i <+: second ∧ ¬ second <+: first.drop i

instance (patterns : List (List α)) : Decidable (Apart patterns) := by
  unfold Apart
  infer_instance

theorem occurrences_of_apart {pattern after : List α} {before : List α}
    (apart : ∀ i < before.length, ¬ pattern <+: before.drop i ++ after) :
    occurrences pattern (before ++ after) = occurrences pattern after := by
  induction before with
  | nil => rfl
  | cons item rest ih =>
    have here : ¬ pattern <+: item :: (rest ++ after) := apart 0 (Nat.succ_pos _)
    rw [List.cons_append, occurrences, if_neg here, Nat.zero_add]
    refine ih (fun i bound => ?_)
    have there := apart (i + 1) (Nat.succ_lt_succ bound)
    rwa [List.drop_succ_cons] at there

theorem own_tokens (filled : ∀ pattern ∈ patterns, pattern ≠ []) (apart : Apart patterns)
    {pattern : List α} (member : pattern ∈ patterns) (text : List α) :
    own pattern (tokens patterns 0 text) = occurrences pattern text := by
  induction text using reading_induction filled with
  | nil => rw [tokens_nil]; rfl
  | hole other rest other_member found ih =>
    have absent : ∀ i < other.length, other ≠ pattern ∨ i ≠ 0 →
        ¬ pattern <+: other.drop i ++ rest := by
      intro i bound different present
      obtain ⟨not_longer, not_shorter⟩ := apart other other_member pattern member i bound different
      rcases List.prefix_or_prefix_of_prefix present (List.prefix_append _ rest) with within | past
      · exact not_shorter within
      · exact not_longer past
    rw [tokens_of_found (filled other other_member) found, own, ih]
    by_cases same : other = pattern
    · subst same
      obtain ⟨item, later, rfl⟩ := List.exists_cons_of_ne_nil (filled other other_member)
      have front : item :: later <+: item :: (later ++ rest) :=
        List.prefix_append (item :: later) rest
      rw [List.cons_append, occurrences, if_pos rfl, if_pos front]
      congr 1
      refine (occurrences_of_apart (fun i bound => ?_)).symm
      have there := absent (i + 1) (Nat.succ_lt_succ bound) (Or.inr (Nat.succ_ne_zero i))
      rwa [List.drop_succ_cons] at there
    · rw [if_neg same, Nat.zero_add]
      exact (occurrences_of_apart (fun i bound => absent i bound (Or.inl same))).symm
  | item item rest none ih =>
    have absent : ¬ pattern <+: item :: rest := by
      intro present
      have missed := List.find?_eq_none.mp none pattern member
      exact missed (List.isPrefixOf_iff_prefix.mpr present)
    rw [tokens_of_none none, own, ih, occurrences, if_neg absent, Nat.zero_add]

end Apart

end OpenWebui.Substitution
