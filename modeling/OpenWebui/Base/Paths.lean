import OpenWebui.Base.Text

/-! Texts of parts with a separator between them, and the parts read back. -/

namespace OpenWebui.Text

variable {separator : Char}

theorem split_ne_nil (text : List Char) : split separator text ≠ [] := by
  cases text with
  | nil => simp [split]
  | cons char rest =>
    rw [split]
    split
    · simp
    · split <;> simp

theorem split_of_free {part : List Char} (free : separator ∉ part) :
    split separator part = [part] := by
  induction part with
  | nil => rfl
  | cons char rest ih =>
    rw [List.mem_cons, not_or] at free
    rw [split, if_neg (Ne.symm free.1), ih free.2]

theorem split_append_separator {part : List Char} (free : separator ∉ part) (rest : List Char) :
    split separator (part ++ separator :: rest) = part :: split separator rest := by
  induction part with
  | nil => rw [List.nil_append, split, if_pos rfl]
  | cons char later ih =>
    rw [List.mem_cons, not_or] at free
    rw [List.cons_append, split, if_neg (Ne.symm free.1), ih free.2]

theorem split_intercalate {parts : List (List Char)} (free : ∀ part ∈ parts, separator ∉ part)
    (some_part : parts ≠ []) : split separator ([separator].intercalate parts) = parts := by
  induction parts with
  | nil => exact absurd rfl some_part
  | cons part rest ih =>
    cases rest with
    | nil => simpa using split_of_free (free part (by simp))
    | cons second later =>
      have splits := ih (fun other member => free other (by simp [member])) (by simp)
      rw [List.intercalate_cons_cons, List.append_assoc, List.singleton_append,
        split_append_separator (free part (by simp)), splits]

theorem free_of_mem_split {text part : List Char} (member : part ∈ split separator text) :
    separator ∉ part := by
  induction text generalizing part with
  | nil =>
    obtain rfl := List.mem_singleton.mp member
    exact List.not_mem_nil
  | cons char rest ih =>
    rw [split] at member
    split at member
    · rcases List.mem_cons.mp member with rfl | later
      · exact List.not_mem_nil
      · exact ih later
    · rename_i other
      cases parts : split separator rest with
      | nil => exact absurd parts (split_ne_nil rest)
      | cons first later =>
        simp only [parts] at member
        rcases List.mem_cons.mp member with rfl | after
        · rw [List.mem_cons, not_or]
          exact ⟨Ne.symm other, ih (parts ▸ List.mem_cons_self)⟩
        · exact ih (parts ▸ List.mem_cons_of_mem first after)

theorem intercalate_split (text : List Char) :
    [separator].intercalate (split separator text) = text := by
  induction text with
  | nil => rfl
  | cons char rest ih =>
    cases parts : split separator rest with
    | nil => exact absurd parts (split_ne_nil rest)
    | cons first later =>
      rw [parts] at ih
      rw [split, parts]
      split
      · rename_i same
        rw [List.intercalate_cons_cons, ih, same]
        rfl
      · cases later with
        | nil => simpa using ih
        | cons second more =>
          rw [List.intercalate_cons_cons] at ih ⊢
          rw [← ih]
          simp

theorem intercalate_concat {parts : List (List Char)} (some_part : parts ≠ []) (last : List Char) :
    [separator].intercalate (parts ++ [last]) = [separator].intercalate parts ++ separator :: last := by
  induction parts with
  | nil => exact absurd rfl some_part
  | cons part rest ih =>
    cases rest with
    | nil => simp [List.intercalate_cons_cons]
    | cons second later =>
      have joined := ih (by simp)
      rw [List.cons_append] at joined
      rw [List.cons_append, List.cons_append, List.intercalate_cons_cons, joined,
        List.intercalate_cons_cons]
      simp only [List.append_assoc]

theorem dropWhile_of_head {char : Char} {text : List Char} {drops : Char → Bool}
    (first : text.head? = some char) (kept : drops char = false) : text.dropWhile drops = text := by
  cases text with
  | nil => rfl
  | cons head rest =>
    obtain rfl := Option.some.inj first
    rw [List.dropWhile_cons, kept]
    rfl

theorem intercalate_ends {parts : List (List Char)} (free : ∀ part ∈ parts, separator ∉ part)
    (filled : ∀ part ∈ parts, part ≠ []) (some_part : parts ≠ []) :
    (∃ char, ([separator].intercalate parts).head? = some char ∧ char ≠ separator) ∧
      ∃ char, ([separator].intercalate parts).getLast? = some char ∧ char ≠ separator := by
  have ends : ∀ part ∈ parts, (∃ char, part.head? = some char ∧ char ≠ separator) ∧
      ∃ char, part.getLast? = some char ∧ char ≠ separator := by
    intro part member
    have apart : ∀ char ∈ part, char ≠ separator :=
      fun char inside same => free part member (same ▸ inside)
    have full := filled part member
    exact ⟨⟨part.head full, List.head?_eq_some_head full, apart _ (List.head_mem full)⟩,
      ⟨part.getLast full, List.getLast?_eq_some_getLast full, apart _ (List.getLast_mem full)⟩⟩
  induction parts with
  | nil => exact absurd rfl some_part
  | cons part rest ih =>
    cases rest with
    | nil => simpa using ends part (by simp)
    | cons second later =>
      obtain ⟨_, last⟩ := ih (fun other member => free other (by simp [member]))
        (fun other member => filled other (by simp [member])) (by simp)
        (fun other member => ends other (by simp [member]))
      obtain ⟨⟨char, first, apart⟩, _⟩ := ends part (by simp)
      rw [List.intercalate_cons_cons]
      refine ⟨⟨char, ?_, apart⟩, ?_⟩
      · rw [List.append_assoc, List.head?_append, first]
        rfl
      · obtain ⟨final, ending, apart⟩ := last
        exact ⟨final, by rw [List.getLast?_append, ending]; rfl, apart⟩

end OpenWebui.Text
