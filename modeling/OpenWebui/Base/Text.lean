import Mathlib.Data.List.Basic
import OpenWebui.Base.Json

/-! Text as a program with dynamic types handles it: white space and stripping, and the text of
values that are no text. -/

namespace OpenWebui

namespace Text

/-- The characters `strip` removes. -/
def isSpace (char : Char) : Bool :=
  let code := char.toNat
  decide (0x9 ≤ code ∧ code ≤ 0xd) || decide (0x1c ≤ code ∧ code ≤ 0x20) || decide (code = 0x85) ||
    decide (code = 0xa0) || decide (code = 0x1680) || decide (0x2000 ≤ code ∧ code ≤ 0x200a) ||
      decide (code = 0x2028) || decide (code = 0x2029) || decide (code = 0x202f) ||
        decide (code = 0x205f) || decide (code = 0x3000)

def lstrip (text : List Char) : List Char := text.dropWhile isSpace

def rstrip (text : List Char) : List Char := (text.reverse.dropWhile isSpace).reverse

def strip (text : List Char) : List Char := rstrip (lstrip text)

def blank (text : List Char) : Bool := text.all isSpace

/-- `text.split(separator)`. -/
def split (separator : Char) : List Char → List (List Char)
  | [] => [[]]
  | char :: rest =>
    if char = separator then [] :: split separator rest
    else
      match split separator rest with
      | [] => [[char]]
      | first :: later => (char :: first) :: later

theorem blank_cons (char : Char) (rest : List Char) :
    blank (char :: rest) = (isSpace char && blank rest) := rfl

theorem blank_reverse (text : List Char) : blank text.reverse = blank text := by
  rw [blank, List.all_reverse, blank]

theorem blank_lstrip (text : List Char) : blank (lstrip text) = blank text := by
  induction text with
  | nil => rfl
  | cons char rest ih =>
    rw [lstrip, List.dropWhile_cons]
    split
    · rename_i space
      rw [blank_cons, space, Bool.true_and]
      exact ih
    · rfl

theorem lstrip_eq_nil {text : List Char} : lstrip text = [] ↔ blank text = true := by
  induction text with
  | nil => exact ⟨fun _ => rfl, fun _ => rfl⟩
  | cons char rest ih =>
    rw [lstrip, List.dropWhile_cons, blank_cons]
    cases isSpace char with
    | true => rw [if_pos rfl, Bool.true_and, ← ih, lstrip]
    | false => simp

theorem rstrip_eq_nil {text : List Char} : rstrip text = [] ↔ blank text = true := by
  rw [rstrip, List.reverse_eq_nil_iff, ← blank_reverse]
  exact lstrip_eq_nil

theorem strip_eq_nil {text : List Char} : strip text = [] ↔ blank text = true := by
  rw [strip, rstrip_eq_nil, blank_lstrip]

theorem lstrip_append {gap text : List Char} (white : blank gap = true)
    (visible : ∀ first ∈ text.head?, isSpace first = false) : lstrip (gap ++ text) = text := by
  induction gap with
  | nil =>
    cases text with
    | nil => rfl
    | cons first rest =>
      have shown := visible first rfl
      rw [List.nil_append, lstrip, List.dropWhile_cons, shown]
      rfl
  | cons char rest ih =>
    obtain ⟨space, white⟩ := Bool.and_eq_true_iff.mp white
    rw [List.cons_append, lstrip, List.dropWhile_cons, space]
    exact ih white

theorem lstrip_cases (text : List Char) :
    ∃ gap, text = gap ++ lstrip text ∧ blank gap = true ∧
      ∀ first ∈ (lstrip text).head?, isSpace first = false := by
  refine ⟨text.takeWhile isSpace, List.takeWhile_append_dropWhile.symm, ?_, ?_⟩
  · exact List.all_takeWhile
  · intro first head
    have stopped := List.head?_dropWhile_not isSpace text
    rw [lstrip] at head
    rw [Option.mem_def.mp head] at stopped
    simpa using stopped

theorem strip_of_ends {first last : Char} {middle : List Char} (starts : isSpace first = false)
    (ends : isSpace last = false) :
    strip (first :: (middle ++ [last])) = first :: (middle ++ [last]) := by
  have front : lstrip (first :: (middle ++ [last])) = first :: (middle ++ [last]) := by
    rw [lstrip, List.dropWhile_cons, starts]
    rfl
  rw [strip, front, rstrip]
  simp [ends]

theorem strip_concat {read : List Char} {last : Char}
    (starts : ∀ first ∈ (read ++ [last]).head?, isSpace first = false)
    (ends : isSpace last = false) : strip (read ++ [last]) = read ++ [last] := by
  cases read with
  | nil => simp [strip, lstrip, rstrip, ends]
  | cons first middle => exact strip_of_ends (starts first rfl) ends

end Text

structure Formatting where
  dumps : Json → String
  str : Json → String

/-- `str(value)`. -/
def Formatting.text (formatting : Formatting) : Json → String
  | .str value => value
  | value => formatting.str value

end OpenWebui

namespace OpenWebui.Lines

universe u

variable {α : Type u} [DecidableEq α] (sep : α)

def complete (items : List α) : List (List α) := (items.splitOn sep).dropLast

def rest (items : List α) : List α := (items.splitOn sep).getLastD []

theorem last_separator (items : List α) :
    sep ∉ items ∨ ∃ before after, items = before ++ sep :: after ∧ sep ∉ after := by
  induction items with
  | nil => exact Or.inl List.not_mem_nil
  | cons item later ih =>
    rcases ih with absent | ⟨before, after, rfl, absent⟩
    · by_cases same : item = sep
      · subst same
        exact Or.inr ⟨[], later, rfl, absent⟩
      · left
        rw [List.mem_cons]
        exact fun member => member.elim (fun equal => same equal.symm) absent
    · exact Or.inr ⟨item :: before, after, rfl, absent⟩

variable {sep}

theorem last_induction {motive : List α → Prop} (single : ∀ items, sep ∉ items → motive items)
    (line : ∀ before after, sep ∉ after → motive before → motive (before ++ sep :: after))
    (items : List α) : motive items := by
  induction length : items.length using Nat.strongRecOn generalizing items with
  | _ size ih =>
    rcases last_separator sep items with absent | ⟨before, after, rfl, absent⟩
    · exact single items absent
    · refine line before after absent (ih before.length ?_ before rfl)
      simp only [← length, List.length_append, List.length_cons]
      omega

theorem parts_of_absent {items : List α} (absent : sep ∉ items) :
    complete sep items = [] ∧ rest sep items = items := by
  simp [complete, rest, List.splitOn_eq_singleton absent]

theorem parts_of_last {before after : List α} (absent : sep ∉ after) :
    complete sep (before ++ sep :: after) = before.splitOn sep ∧
      rest sep (before ++ sep :: after) = after := by
  simp [complete, rest, List.splitOn_append_cons_self, List.splitOn_eq_singleton absent]

theorem splitOn_eq (items : List α) :
    items.splitOn sep = complete sep items ++ [rest sep items] := by
  rcases last_separator sep items with absent | ⟨before, after, rfl, absent⟩
  · obtain ⟨none, all⟩ := parts_of_absent absent
    rw [none, all, List.splitOn_eq_singleton absent]
    rfl
  · obtain ⟨lines, last⟩ := @parts_of_last _ _ sep before after absent
    rw [lines, last, List.splitOn_append_cons_self, List.splitOn_eq_singleton absent]

theorem splitOn_append (first second : List α) :
    (first ++ second).splitOn sep =
      complete sep first ++ (rest sep first ++ second).splitOn sep := by
  rcases last_separator sep first with absent | ⟨before, after, rfl, absent⟩
  · obtain ⟨none, all⟩ := parts_of_absent absent
    rw [none, all]
    rfl
  · obtain ⟨lines, last⟩ := @parts_of_last _ _ sep before after absent
    rw [lines, last, List.append_assoc, List.cons_append, List.splitOn_append_cons_self]

theorem complete_append (first second : List α) :
    complete sep (first ++ second) =
      complete sep first ++ complete sep (rest sep first ++ second) := by
  rw [complete, splitOn_append, splitOn_eq (rest sep first ++ second), ← List.append_assoc,
    List.dropLast_concat]

theorem rest_append (first second : List α) :
    rest sep (first ++ second) = rest sep (rest sep first ++ second) := by
  rw [rest, splitOn_append, splitOn_eq (rest sep first ++ second), ← List.append_assoc,
    List.getLastD_concat]

theorem not_mem_rest (items : List α) : sep ∉ rest sep items := by
  rcases last_separator sep items with absent | ⟨before, after, rfl, absent⟩
  · rwa [(parts_of_absent absent).2]
  · rwa [(@parts_of_last _ _ sep before after absent).2]

theorem not_mem_of_mem_splitOn {items line : List α} (member : line ∈ items.splitOn sep) :
    sep ∉ line := by
  induction items using @last_induction _ _ sep with
  | single items absent =>
    rw [List.splitOn_eq_singleton absent, List.mem_singleton] at member
    exact member ▸ absent
  | line before after absent ih =>
    rw [List.splitOn_append_cons_self, List.splitOn_eq_singleton absent, List.mem_append,
      List.mem_singleton] at member
    rcases member with earlier | rfl
    · exact ih earlier
    · exact absent

theorem flatten_complete (items : List α) :
    ((complete sep items).map (fun line => line ++ [sep])).flatten ++ rest sep items = items := by
  induction items using @last_induction _ _ sep with
  | single items absent =>
    obtain ⟨none, all⟩ := parts_of_absent absent
    rw [none, all]
    rfl
  | line before after absent ih =>
    obtain ⟨lines, last⟩ := @parts_of_last _ _ sep before after absent
    rw [lines, last, splitOn_eq before, List.map_append, List.flatten_append, List.map_singleton,
      List.flatten_singleton, ← List.append_assoc, ih, List.append_assoc]
    rfl

theorem short_before {bound : Nat} {first second : List α}
    (short : ∀ line ∈ (first ++ second).splitOn sep, line.length ≤ bound) :
    ∀ line ∈ first.splitOn sep, line.length ≤ bound := by
  intro line member
  rw [splitOn_append] at short
  rw [splitOn_eq, List.mem_append, List.mem_singleton] at member
  rcases member with member | rfl
  · exact short line (List.mem_append_left _ member)
  · -- The rest begins the line that comes next.
    have longer : ∃ next ∈ (rest sep first ++ second).splitOn sep,
        (rest sep first).length ≤ next.length := by
      by_cases present : sep ∈ second
      · obtain ⟨before, after, rfl, absent⟩ := List.eq_append_cons_of_mem present
        have fresh : sep ∉ rest sep first ++ before := by
          rw [List.mem_append]
          exact fun member => member.elim (not_mem_rest first) absent
        rw [← List.append_assoc, List.splitOn_append_cons_self_of_not_mem fresh]
        exact ⟨_, List.mem_cons_self .., by simp⟩
      · have fresh : sep ∉ rest sep first ++ second := by
          rw [List.mem_append]
          exact fun member => member.elim (not_mem_rest first) present
        rw [List.splitOn_eq_singleton fresh]
        exact ⟨_, List.mem_singleton.mpr rfl, by simp⟩
    obtain ⟨next, inside, long⟩ := longer
    exact Nat.le_trans long (short next (List.mem_append_right _ inside))

end OpenWebui.Lines
