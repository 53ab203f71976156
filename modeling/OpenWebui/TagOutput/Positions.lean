import OpenWebui.TagOutput.Handler

/-! Where a search for tags begins in a text that has been scanned before, and which matches of the
whole text it overlooks. -/

namespace OpenWebui.TagOutput

open Text Search

theorem rfind_nonneg_iff {char : Char} {text : List Char} : 0 ≤ rfind char text ↔ char ∈ text := by
  induction text with
  | nil => simp [rfind]
  | cons first rest ih =>
    rw [rfind, List.mem_cons, ← ih]
    split
    · rename_i later
      constructor
      · exact fun _ => Or.inr later
      · intro _
        omega
    · rename_i nowhere
      by_cases same : first = char
      · simp [same]
      · simp [same, Ne.symm same, nowhere]

theorem rfind_lt (char : Char) (text : List Char) : rfind char text < text.length := by
  induction text with
  | nil => simp [rfind]
  | cons first rest ih =>
    rw [rfind, List.length_cons]
    push_cast
    split
    · omega
    · split <;> omega

theorem rfind_append (char : Char) (first second : List Char) :
    rfind char (first ++ second) =
      if char ∈ second then (first.length : Int) + rfind char second else rfind char first := by
  induction first with
  | nil =>
    split
    · simp
    · rename_i absent
      have below : ¬ 0 ≤ rfind char second := fun found => absent (rfind_nonneg_iff.mp found)
      have least : ∀ text, -1 ≤ rfind char text := by
        intro text
        induction text with
        | nil => simp [rfind]
        | cons head tail ih =>
          rw [rfind]
          split
          · omega
          · split <;> omega
      have bound := least second
      simp only [List.nil_append, rfind]
      omega
  | cons head tail ih =>
    rw [List.cons_append, rfind, ih]
    split
    · rename_i member
      have found := rfind_nonneg_iff.mpr member
      rw [if_pos (by omega), List.length_cons]
      push_cast
      omega
    · rw [rfind]

section Around

variable {char opening : Char} {before behind : List Char}

theorem lt_rfind_of_mem (member : char ∈ behind) :
    (before.length : Int) < rfind char (before ++ opening :: behind) := by
  have found := rfind_nonneg_iff.mpr member
  rw [rfind_append, if_pos (List.mem_cons_of_mem opening member), rfind, if_pos found]
  omega

theorem rfind_of_not_mem (absent : char ∉ behind) :
    rfind opening (before ++ opening :: behind) = before.length ∨ opening ≠ char := by
  by_cases same : opening = char
  · left
    obtain rfl := same
    have below : ¬ 0 ≤ rfind opening behind := fun found => absent (rfind_nonneg_iff.mp found)
    rw [rfind_append, if_pos List.mem_cons_self, rfind, if_neg below, if_pos rfl]
    omega
  · exact Or.inr same

theorem rfind_lt_of_not_mem (absent : char ∉ behind) (other : opening ≠ char) :
    rfind char (before ++ opening :: behind) < before.length := by
  have outside : char ∉ opening :: behind := by
    simp [Ne.symm other, absent]
  rw [rfind_append, if_neg outside]
  exact rfind_lt char before

end Around

theorem length_le_max {tags : List Tag} {tag : Tag} (member : tag ∈ tags) :
    tag.1.length ≤ max_start_tag_length tags := by
  have bounded : ∀ {lengths : List Nat} {length : Nat}, length ∈ lengths →
      length ≤ lengths.foldr max 0 := by
    intro lengths length listed
    induction lengths with
    | nil => cases listed
    | cons first rest ih =>
      rcases List.mem_cons.mp listed with rfl | later
      · exact Nat.le_max_left _ _
      · exact (ih later).trans (Nat.le_max_right _ _)
  cases tags with
  | nil => cases member
  | cons first rest =>
    exact bounded (List.mem_map_of_mem member)

def cuts (char : Char) : Bool := char == '<' || char == '>' || char == '\n'

theorem search_start_le (tags : List Tag) (scanned_length : Nat) (item_text : List Char) :
    search_start tags scanned_length item_text ≤
      scanned_length + 1 - max_start_tag_length tags := by
  simp only [search_start]
  split
  · split
    · exact Nat.min_le_left _ _
    · exact Nat.le_refl _
  · exact Nat.le_refl _

theorem lt_search_start_iff {tags : List Tag} {scanned_length : Nat} {item_text : List Char}
    {before behind : List Char} (bracket : tags.any (fun tag => bracketed tag.1) = true)
    (scanned : item_text.take scanned_length = before ++ '<' :: behind) :
    before.length < search_start tags scanned_length item_text ↔
      before.length + max_start_tag_length tags ≤ scanned_length ∧ behind.any cuts = true := by
  have some : scanned_length ≠ 0 := by
    rintro rfl
    rw [List.take_zero] at scanned
    cases before <;> cases scanned
  simp only [search_start]
  rw [if_pos ⟨some, bracket⟩, scanned]
  by_cases cut : behind.any cuts = true
  · rw [and_iff_left cut]
    obtain ⟨char, member, kind⟩ := List.any_eq_true.mp cut
    have fits : before.length < scanned_length + 1 - max_start_tag_length tags ↔
        before.length + max_start_tag_length tags ≤ scanned_length := by omega
    by_cases opens : '<' ∈ behind
    · have later : (before.length : Int) < rfind '<' (before ++ '<' :: behind) :=
        lt_rfind_of_mem opens
      split <;> omega
    · have here : rfind '<' (before ++ '<' :: behind) = before.length :=
        (rfind_of_not_mem opens).resolve_right (fun other => other rfl)
      have boundary : (before.length : Int) <
          max (rfind '>' (before ++ '<' :: behind)) (rfind '\n' (before ++ '<' :: behind)) := by
        simp only [cuts, Bool.or_eq_true, beq_iff_eq] at kind
        rcases kind with (rfl | rfl) | rfl
        · exact absurd member opens
        · exact Int.lt_of_lt_of_le (lt_rfind_of_mem member) (Int.le_max_left _ _)
        · exact Int.lt_of_lt_of_le (lt_rfind_of_mem member) (Int.le_max_right _ _)
      rw [here, if_neg (by omega)]
      exact fits
  · have none : ∀ char, cuts char = true → char ∉ behind := by
      intro char kind member
      exact cut (List.any_eq_true.mpr ⟨char, member, kind⟩)
    have here : rfind '<' (before ++ '<' :: behind) = before.length :=
      (rfind_of_not_mem (none '<' rfl)).resolve_right (fun other => other rfl)
    have closed : rfind '>' (before ++ '<' :: behind) < before.length :=
      rfind_lt_of_not_mem (none '>' rfl) (by decide)
    have line : rfind '\n' (before ++ '<' :: behind) < before.length :=
      rfind_lt_of_not_mem (none '\n' rfl) (by decide)
    rw [here, if_pos (Int.max_lt.mpr ⟨closed, line⟩)]
    constructor
    · intro behindOpen
      omega
    · rintro ⟨-, cut'⟩
      exact absurd cut' cut

section Search

variable {start_tag text : List Char} {found : Found}

theorem search_front : search start_tag 0 text =
    (leftmost (startTag start_tag) text).map (fun found => ⟨found.1, found.2.1, found.2.2⟩) := by
  rw [search, List.drop_zero, List.take_zero]
  rfl

theorem search_front_some (whole : search start_tag 0 text = some found) :
    leftmost (startTag start_tag) text =
      some (found.before_tag, found.attr_content, found.after_tag) := by
  rw [search_front] at whole
  obtain ⟨⟨before, group, after⟩, here, rfl⟩ := Option.map_eq_some_iff.mp whole
  exact here

theorem search_front_none (nowhere : search start_tag 0 text = none) :
    leftmost (startTag start_tag) text = none := by
  rw [search_front] at nowhere
  exact Option.map_eq_none_iff.mp nowhere

theorem search_none (nowhere : search start_tag 0 text = none) (start : Nat) :
    search start_tag start text = none := by
  rw [search, leftmost_drop_eq_none (search_front_none nowhere)]
  rfl

theorem search_later (whole : search start_tag 0 text = some found) {start : Nat}
    (reached : start ≤ found.before_tag.length) : search start_tag start text = some found := by
  have here := search_front_some whole
  obtain ⟨rest, parts, -, -⟩ := leftmost_eq_some here
  have front : text.take start = found.before_tag.take start := by
    rw [parts, List.take_append_of_le_length reached]
  rw [search, leftmost_drop here reached, front, Option.map_some, List.take_append_drop]

theorem search_clamped (start : Nat) :
    search start_tag start text = search start_tag (min start text.length) text := by
  rcases Nat.le_total start text.length with inside | outside
  · rw [Nat.min_eq_left inside]
  · rw [Nat.min_eq_right outside, search, search, List.drop_eq_nil_of_le outside,
      List.take_of_length_le outside, List.drop_length, List.take_length]

theorem search_reaches {start : Nat} (later : search start_tag start text = some found) :
    min start text.length ≤ found.before_tag.length := by
  rw [search] at later
  obtain ⟨⟨before, group, after⟩, -, rfl⟩ := Option.map_eq_some_iff.mp later
  rw [List.length_append, List.length_take]
  exact Nat.le_add_right _ _

end Search

theorem find_start_tag_eq_iff (tags : List Tag) (start : Nat) (text : List Char) :
    find_start_tag tags start text = find_start_tag tags 0 text ↔
      ∀ tag found, find_start_tag tags 0 text = some (tag, found) →
        min start text.length ≤ found.before_tag.length := by
  constructor
  · intro same tag found whole
    rw [← same] at whole
    obtain ⟨_, _, here⟩ := List.exists_of_findSome?_eq_some whole
    obtain ⟨other, later, pair⟩ := Option.map_eq_some_iff.mp here
    cases pair
    exact search_reaches later
  · intro reached
    induction tags with
    | nil => rfl
    | cons tag rest ih =>
      simp only [find_start_tag, List.findSome?_cons] at reached ⊢
      cases whole : search tag.1 0 text with
      | none =>
        rw [search_none whole start]
        rw [whole] at reached
        exact ih reached
      | some found =>
        rw [whole] at reached
        have later := search_later whole (reached tag found rfl)
        rw [← search_clamped] at later
        rw [later]
        rfl

theorem find_start_tag_some {tags : List Tag} {text : List Char} {tag : Tag} {found : Found}
    (whole : find_start_tag tags 0 text = some (tag, found)) :
    tag ∈ tags ∧ leftmost (startTag tag.1) text =
      some (found.before_tag, found.attr_content, found.after_tag) := by
  obtain ⟨first, member, here⟩ := List.exists_of_findSome?_eq_some whole
  obtain ⟨other, found, pair⟩ := Option.map_eq_some_iff.mp here
  cases pair
  exact ⟨member, search_front_some found⟩

/-- The text has been scanned up to a length without a start tag. -/
def ScannedStart (tags : List Tag) (scanned_length : Nat) (text : List Char) : Prop :=
  scanned_length ≤ text.length ∧
    (scanned_length ≠ 0 → find_start_tag tags 0 (text.take scanned_length) = none)

/-- The first start tag of the whole text is overlooked by a search that begins after what has been
scanned: the longest start tag fits between the tag's beginning and the end of what has been
scanned, and a bracket or a new line has been scanned behind its first character. Empty start tags
alone are looked for behind the first character. -/
def Overlooked (tags : List Tag) (scanned_length : Nat) (text : List Char) : Prop :=
  ∃ tag found, find_start_tag tags 0 text = some (tag, found) ∧
    ((max_start_tag_length tags = 0 ∧ text ≠ []) ∨
      (found.before_tag.length + max_start_tag_length tags ≤ scanned_length ∧
        ((text.take scanned_length).drop (found.before_tag.length + 1)).any cuts = true))

theorem take_of_ends {before needle after : List Char} {length : Nat}
    (ends : before.length + needle.length ≤ length) :
    ∃ more, (before ++ (needle ++ after)).take length = before ++ (needle ++ more) := by
  refine ⟨after.take (length - (before ++ needle).length), ?_⟩
  rw [← List.append_assoc, List.take_append, List.take_of_length_le, List.append_assoc]
  rw [List.length_append]
  exact ends

theorem literal_ends_behind {tags : List Tag} {scanned_length : Nat} {text : List Char} {tag : Tag}
    {found : Found} (scanned : ScannedStart tags scanned_length text)
    (whole : find_start_tag tags 0 text = some (tag, found)) (plain : bracketed tag.1 ≠ true)
    (some : scanned_length ≠ 0) : scanned_length < found.before_tag.length + tag.1.length := by
  obtain ⟨member, here⟩ := find_start_tag_some whole
  obtain ⟨rest, parts, front, -⟩ := leftmost_eq_some here
  obtain ⟨spelled, -⟩ := (startTag_literal plain).mp front
  by_contra inside
  obtain ⟨more, ends⟩ := @take_of_ends found.before_tag tag.1 found.after_tag scanned_length
    (Nat.not_lt.mp inside)
  rw [← spelled, ← parts] at ends
  have nowhere : search tag.1 0 (text.take scanned_length) = none := by
    have none := List.findSome?_eq_none_iff.mp (scanned.2 some) tag member
    exact Option.map_eq_none_iff.mp none
  have early := leftmost_eq_none.mp (search_front_none nowhere) _ _ ends
  rw [(startTag_literal plain).mpr ⟨rfl, rfl⟩] at early
  cases early

theorem bracketed_begins {start_tag text group rest : List Char}
    (bracket : bracketed start_tag = true) (front : startTag start_tag text = some (group, rest)) :
    ∃ later, text = '<' :: later := by
  obtain ⟨behind, spelled, -⟩ := (startTag_bracketed bracket).mp front
  have ends : start_tag.head? = some '<' ∧ start_tag.getLast? = some '>' := by
    simpa [bracketed] using bracket
  obtain ⟨first, later, shape⟩ : ∃ later last, start_tag = '<' :: later ++ [last] := by
    obtain ⟨starts, stops⟩ := ends
    cases start_tag with
    | nil => cases starts
    | cons head tail =>
      obtain rfl := Option.some.inj starts
      rcases tail.eq_nil_or_concat with rfl | ⟨middle, last, rfl⟩
      · exact absurd (Option.some.inj stops) (by decide)
      · exact ⟨middle, last, by simp⟩
  rw [spelled, shape, List.dropLast_concat]
  exact ⟨first ++ behind, rfl⟩

theorem max_start_tag_length_zero {tags : List Tag} (short : max_start_tag_length tags = 0)
    {tag : Tag} (member : tag ∈ tags) : tag.1 = [] := by
  have bound := length_le_max member
  rw [short] at bound
  exact List.length_eq_zero_iff.mp (Nat.le_zero.mp bound)

section Overlooked

variable {tags : List Tag} {scanned_length : Nat} {text : List Char} {tag : Tag} {found : Found}

theorem empty_overlooked_iff (short : max_start_tag_length tags = 0)
    (whole : find_start_tag tags 0 text = some (tag, found)) :
    found.before_tag.length < min (search_start tags scanned_length text) text.length ↔
      text ≠ [] := by
  obtain ⟨member, here⟩ := find_start_tag_some whole
  have empty := max_start_tag_length_zero short member
  have front : startTag tag.1 text = some ([], text) := by
    rw [empty]
    exact (startTag_literal (by decide)).mpr ⟨rfl, rfl⟩
  have start : found.before_tag = [] := by
    have first := leftmost_of_front front
    rw [here] at first
    exact congrArg Prod.fst (Option.some.inj first)
  have none : ¬ tags.any (fun tag => bracketed tag.1) = true := by
    rw [List.any_eq_true]
    rintro ⟨other, listed, bracket⟩
    rw [max_start_tag_length_zero short listed] at bracket
    exact absurd bracket (by decide)
  simp only [search_start, start, short, none]
  rw [if_neg (by simp), List.length_nil, ← List.length_pos_iff]
  omega

theorem not_reached_iff (scanned : ScannedStart tags scanned_length text)
    (whole : find_start_tag tags 0 text = some (tag, found)) :
    found.before_tag.length < min (search_start tags scanned_length text) text.length ↔
      (max_start_tag_length tags = 0 ∧ text ≠ []) ∨
        (found.before_tag.length + max_start_tag_length tags ≤ scanned_length ∧
          ((text.take scanned_length).drop (found.before_tag.length + 1)).any cuts = true) := by
  obtain ⟨member, here⟩ := find_start_tag_some whole
  obtain ⟨rest, parts, front, -⟩ := leftmost_eq_some here
  have long := length_le_max member
  have late := search_start_le tags scanned_length text
  have size := scanned.1
  by_cases short : max_start_tag_length tags = 0
  · rw [empty_overlooked_iff short whole]
    constructor
    · exact fun filled => Or.inl ⟨short, filled⟩
    · rintro (⟨-, filled⟩ | ⟨-, cut⟩)
      · exact filled
      · rintro rfl
        simp at cut
  · have inside : min (search_start tags scanned_length text) text.length =
        search_start tags scanned_length text := by
      apply Nat.min_eq_left
      omega
    rw [inside, or_iff_right (fun both => short both.1)]
    by_cases near : found.before_tag.length + max_start_tag_length tags ≤ scanned_length
    · have some : scanned_length ≠ 0 := by omega
      have bracket : bracketed tag.1 = true := by
        by_contra plain
        have behind := literal_ends_behind scanned whole plain some
        omega
      obtain ⟨later, opens⟩ := bracketed_begins bracket front
      have split : text.take scanned_length = found.before_tag ++ '<' ::
          (text.take scanned_length).drop (found.before_tag.length + 1) := by
        have shorter : found.before_tag.length < (text.take scanned_length).length := by
          rw [List.length_take]
          omega
        have starts : (text.take scanned_length).take found.before_tag.length =
            found.before_tag := by
          rw [List.take_take, Nat.min_eq_left (by omega), parts, List.take_left]
        have first : (text.take scanned_length)[found.before_tag.length] = '<' := by
          simp [parts, opens]
        conv_lhs =>
          rw [← List.take_append_drop found.before_tag.length (text.take scanned_length),
            List.drop_eq_getElem_cons shorter, starts, first]
      exact lt_search_start_iff (List.any_eq_true.mpr ⟨tag, member, bracket⟩) split
    · constructor
      · intro reached
        omega
      · rintro ⟨close, -⟩
        exact absurd close near

theorem find_start_tag_iff (scanned : ScannedStart tags scanned_length text) :
    find_start_tag tags (search_start tags scanned_length text) text =
      find_start_tag tags 0 text ↔ ¬ Overlooked tags scanned_length text := by
  rw [find_start_tag_eq_iff]
  constructor
  · rintro reached ⟨tag, found, whole, missed⟩
    have behind := (not_reached_iff scanned whole).mpr missed
    exact absurd (reached tag found whole) (Nat.not_le.mpr behind)
  · intro seen tag found whole
    by_contra missed
    exact seen ⟨tag, found, whole, (not_reached_iff scanned whole).mp (Nat.not_le.mp missed)⟩

end Overlooked

/-- The text has been scanned up to a length without the end tag. -/
def ScannedEnd (end_tag : List Char) (scanned_length : Nat) (text : List Char) : Prop :=
  scanned_length ≤ text.length ∧
    (scanned_length ≠ 0 → find_end_tag end_tag 0 (text.take scanned_length) = none)

theorem find_end_tag_later {end_tag : List Char} {scanned_length : Nat} {text : List Char}
    (scanned : ScannedEnd end_tag scanned_length text) :
    find_end_tag end_tag (end_tag_search_start end_tag scanned_length) text =
      find_end_tag end_tag 0 text := by
  have size := scanned.1
  have within : end_tag_search_start end_tag scanned_length ≤ text.length := by
    rw [end_tag_search_start]
    omega
  rw [find_end_tag, find_end_tag, if_pos within, if_pos (Nat.zero_le _), List.drop_zero]
  cases whole : leftmost (literal end_tag) text with
  | none => rw [firstPlace, firstPlace, leftmost_drop_eq_none whole, whole]; rfl
  | some place =>
    obtain ⟨before, value, after⟩ := place
    obtain ⟨rest, parts, here, -⟩ := leftmost_eq_some whole
    have spelled := literal_eq_some.mp here
    have reached : end_tag_search_start end_tag scanned_length ≤ before.length := by
      rw [end_tag_search_start]
      by_cases some : scanned_length = 0
      · omega
      · have nowhere : leftmost (literal end_tag) (text.take scanned_length) = none := by
          have none := scanned.2 some
          rw [find_end_tag, if_pos (Nat.zero_le _), List.drop_zero, firstPlace] at none
          exact Option.map_eq_none_iff.mp (Option.map_eq_none_iff.mp none)
        have absent := leftmost_eq_none.mp nowhere
        have filled : end_tag ≠ [] := by
          rintro rfl
          have front := absent [] _ rfl
          rw [literal_eq_some.mpr (List.nil_append _).symm] at front
          cases front
        have long : 0 < end_tag.length := List.length_pos_iff.mpr filled
        by_contra behind
        obtain ⟨more, ends⟩ := @take_of_ends before end_tag after scanned_length (by omega)
        rw [← spelled, ← parts] at ends
        have early := absent before (end_tag ++ more) ends
        rw [literal_append] at early
        cases early
    have later := leftmost_drop whole reached
    rw [firstPlace, firstPlace, later, whole]
    simp only [Option.map_some, List.length_drop]
    congr 1
    omega

end OpenWebui.TagOutput
