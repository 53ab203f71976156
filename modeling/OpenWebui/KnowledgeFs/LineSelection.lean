import OpenWebui.Base.Paths
import OpenWebui.KnowledgeFs.Confined

/-! The lines that `head`, `tail` and `sed` select, of a file and of the output of a command. -/

namespace OpenWebui.KnowledgeFs

open AccessGrants (User)

inductive Selection where
  | head (n : Nat)
  | tail (n : Nat)
  | sed (first last : Nat) (positive : 1 ≤ first) (ordered : first ≤ last)

namespace Selection

def tokens : Selection → List String
  | head n => ["head", "-" ++ toString n]
  | tail n => ["tail", "-" ++ toString n]
  | sed first last _ _ => ["sed", "-n", toString first ++ "," ++ toString last ++ "p"]

def lines : Selection → List String → List String
  | head n, lines => lines.take (min n lines.length)
  | tail n, lines => lines.drop (lines.length - min n lines.length)
  | sed first last _ _, lines => (lines.take (min last lines.length)).drop (first - 1)

def trailer (total : Nat) : Selection → String
  | head n =>
    if n < total then "\n[showing " ++ toString n ++ " of " ++ toString total ++ " lines]" else ""
  | tail n =>
    if n < total then "\n[showing last " ++ toString n ++ " of " ++ toString total ++ " lines]"
    else ""
  | sed first last _ _ =>
    "\n[lines " ++ toString first ++ "-" ++ toString (min last total) ++ " of " ++ toString total ++
      "]"

/-- An argument that the command takes for a file. -/
def Names (platform : Platform) (ref : String) : Selection → Prop
  | head _ => isFlags platform ref = false
  | tail _ => isFlags platform ref = false
  | sed _ _ _ _ => isFlags platform ref = false ∧ lineRange platform true ref = none ∧ ref ≠ ""

end Selection

/-- What `str.isdigit` and `int` do with ASCII characters. -/
structure AsciiDigits (platform : Platform) : Prop where
  isdigit : ∀ char : Char, char.toNat < 128 → platform.isdigit char = char.isDigit
  decimal : ∀ char : Char, char.toNat < 128 →
    platform.decimal char = if char.isDigit then some (char.toNat - 48) else none

section Digits

variable {platform : Platform} (digits : AsciiDigits platform)

theorem isDigit_of_mem {n : Nat} {char : Char} (member : char ∈ Nat.toDigits 10 n) :
    char.isDigit = true :=
  Nat.isDigit_of_mem_toDigits (by decide) (by decide) member

theorem ascii_of_isDigit {char : Char} (digit : char.isDigit = true) : char.toNat < 128 := by
  exact Nat.lt_of_le_of_lt (Char.isDigit_iff_toNat.mp digit).2 (by decide)

include digits

theorem readNumber_digits {chars : List Char} (all : ∀ char ∈ chars, char.isDigit = true)
    (rest : List Char) (number : Nat) :
    readNumber platform (chars ++ rest) (some number) =
      readNumber platform rest (some (Nat.ofDigitChars 10 chars number)) := by
  induction chars generalizing number with
  | nil => simp
  | cons char later ih =>
    have digit := all char List.mem_cons_self
    have value := digits.decimal char (ascii_of_isDigit digit)
    rw [if_pos digit] at value
    rw [List.cons_append, readNumber, value, Nat.ofDigitChars_cons]
    simp only [Option.getD_some]
    rw [ih (fun other member => all other (List.mem_cons_of_mem char member)), Nat.mul_comm]
    rfl

theorem readNumber_stop {char : Char} (low : char.toNat < 128) (other : char.isDigit = false)
    (rest : List Char) (number : Nat) :
    readNumber platform (char :: rest) (some number) = some (number, char :: rest) := by
  have value := digits.decimal char low
  rw [other] at value
  simp [readNumber, value]

theorem readNumber_toDigits (n : Nat) {rest : List Char}
    (stops : ∀ char ∈ rest.head?, char.toNat < 128 ∧ char.isDigit = false) :
    readNumber platform (Nat.toDigits 10 n ++ rest) none = some (n, rest) := by
  have all : ∀ char ∈ Nat.toDigits 10 n, char.isDigit = true := fun _ => isDigit_of_mem
  obtain ⟨first, later, chars⟩ := List.exists_cons_of_ne_nil
    (Nat.toDigits_ne_nil : Nat.toDigits 10 n ≠ [])
  -- the first digit is read as after a zero
  have begin : readNumber platform (Nat.toDigits 10 n ++ rest) none =
      readNumber platform (Nat.toDigits 10 n ++ rest) (some 0) := by
    have digit := all first (chars ▸ List.mem_cons_self)
    have read := digits.decimal first (ascii_of_isDigit digit)
    rw [if_pos digit] at read
    rw [chars, List.cons_append, readNumber, readNumber, read]
    rfl
  rw [begin, readNumber_digits digits all, Nat.ofDigitChars_ten_toDigits]
  cases rest with
  | nil => rfl
  | cons char after =>
    obtain ⟨low, other⟩ := stops char rfl
    exact readNumber_stop digits low other after n

theorem numericFlag_number (n : Nat) : numericFlag platform ("-" ++ toString n) = some n := by
  have read := @readNumber_toDigits platform digits n [] (by simp)
  rw [List.append_nil] at read
  simp [numericFlag, read, atEnd]

theorem isFlags_number (n : Nat) : isFlags platform ("-" ++ toString n) = false := by
  have all : ∀ char ∈ Nat.toDigits 10 n, platform.isdigit char = true := by
    intro char member
    have digit := isDigit_of_mem member
    rw [digits.isdigit char (ascii_of_isDigit digit), digit]
  simpa [isFlags] using all

theorem isFlags_n : isFlags platform "-n" = true := by
  have letter : platform.isdigit 'n' = false := digits.isdigit 'n' (by decide)
  simp [isFlags, letter]

theorem lineRange_range (quotes : Bool) (first last : Nat) :
    lineRange platform quotes (toString first ++ "," ++ toString last ++ "p") =
      some (first, last) := by
  have start := @readNumber_toDigits platform digits first
    (',' :: (Nat.toDigits 10 last ++ ['p'])) (by simp)
  have finish := @readNumber_toDigits platform digits last ['p'] (by simp)
  have plain : skip '\'' (Nat.toDigits 10 first ++ ',' :: (Nat.toDigits 10 last ++ ['p'])) =
      Nat.toDigits 10 first ++ ',' :: (Nat.toDigits 10 last ++ ['p']) := by
    obtain ⟨char, later, chars⟩ := List.exists_cons_of_ne_nil
      (Nat.toDigits_ne_nil : Nat.toDigits 10 first ≠ [])
    have digit : char.isDigit = true := isDigit_of_mem (chars ▸ List.mem_cons_self)
    rw [chars, List.cons_append, skip, List.head?_cons, if_neg]
    intro quote
    rw [Option.some.inj quote] at digit
    exact absurd digit (by decide)
  have text : (toString first ++ "," ++ toString last ++ "p").toList =
      Nat.toDigits 10 first ++ ',' :: (Nat.toDigits 10 last ++ ['p']) := by
    simp
  rw [lineRange, text]
  cases quotes with
  | false => simp [start, finish, skip, atEnd]
  | true =>
    simp only [if_true, plain, start, Option.bind_some, finish]
    simp [skip, atEnd]

omit digits in
theorem isFlags_range (first last : Nat) :
    isFlags platform (toString first ++ "," ++ toString last ++ "p") = false := by
  obtain ⟨char, later, chars⟩ := List.exists_cons_of_ne_nil
    (Nat.toDigits_ne_nil : Nat.toDigits 10 first ≠ [])
  have digit : char.isDigit = true := isDigit_of_mem (chars ▸ List.mem_cons_self)
  have other : char ≠ '-' := by
    rintro rfl
    exact absurd digit (by decide)
  simp only [isFlags, String.toList_append, Nat.toString_eq_ofList_toDigits, String.toList_ofList,
    chars, List.cons_append]
  split
  · rename_i dash same
    exact absurd (List.cons.inj same).1 other
  · rfl

end Digits

section Lines

theorem toList_unlines (lines : List String) :
    (unlines lines).toList = ['\n'].intercalate (lines.map String.toList) := by
  rw [unlines, String.toList_intercalate]
  rfl

theorem unlines_splitLines (content : String) : unlines (splitLines content) = content := by
  apply String.toList_inj.mp
  rw [toList_unlines, splitLines, List.map_map]
  simp [Function.comp_def, Text.intercalate_split]

theorem splitLines_ne_nil (content : String) : splitLines content ≠ [] := by
  rw [splitLines, ne_eq, List.map_eq_nil_iff]
  exact Text.split_ne_nil content.toList

theorem free_of_mem_splitLines {content line : String} (member : line ∈ splitLines content) :
    '\n' ∉ line.toList := by
  obtain ⟨part, inside, rfl⟩ := List.mem_map.mp member
  rw [String.toList_ofList]
  exact Text.free_of_mem_split inside

theorem splitLines_unlines {content : String} {lines : List String} (inside : lines ⊆ splitLines content)
    (some_line : lines ≠ []) : splitLines (unlines lines) = lines := by
  rw [splitLines, toList_unlines, Text.split_intercalate ?_ (by simpa using some_line), List.map_map]
  · simp [Function.comp_def]
  · intro part member
    obtain ⟨line, listed, rfl⟩ := List.mem_map.mp member
    exact free_of_mem_splitLines (inside listed)

theorem lastLines_eq {n : Nat} (positive : n ≠ 0) (lines : List String) :
    lastLines n lines = lines.drop (lines.length - min n lines.length) := by
  rw [lastLines, if_neg positive]
  congr 1
  omega

theorem take_min (n : Nat) (lines : List String) : lines.take (min n lines.length) = lines.take n :=
  List.take_eq_take_iff.mpr (by omega)

end Lines

section Selects

variable (platform : Platform) (limits : Limits) (library : Library) (user : User)
  (model_knowledge : List AttachedItem)

def output (segments : List (List String)) (piped_input : Option String) : Exec String :=
  execute_pipeline platform limits library user model_knowledge segments piped_input

/-- A command shows the lines it is to select, of the content as piped input and as a file. -/
structure Selects (selection : Selection) (content : String) : Prop where
  piped : output platform limits library user model_knowledge [selection.tokens] (some content) =
    pure (unlines (selection.lines (splitLines content)))
  file : ∀ ref found, selection.Names platform ref →
    resolve_file platform library user model_knowledge ref = some (.file found) →
      found.content = .str content →
        output platform limits library user model_knowledge [selection.tokens ++ [ref]] none =
          pure (unlines (selection.lines (splitLines content)) ++
            selection.trailer (splitLines content).length)

/-- The first lines and the remaining ones, as the commands show them, are the content. -/
def Concatenates (content : String) (n : Nat) : Prop :=
  ∃ front back : List String, front ++ back = splitLines content ∧
    output platform limits library user model_knowledge [(Selection.head n).tokens] (some content) =
      pure (unlines front) ∧
    output platform limits library user model_knowledge
      [(Selection.tail ((splitLines content).length - n)).tokens] (some content) =
        pure (unlines back)

/-- The lines of a range are the last of its first ones. -/
def RangeIsTailOfHead (content : String) (first last : Nat) (positive : 1 ≤ first)
    (ordered : first ≤ last) : Prop :=
  output platform limits library user model_knowledge
      [(Selection.sed first last positive ordered).tokens] (some content) =
    output platform limits library user model_knowledge [(Selection.head last).tokens,
      (Selection.tail (min last (splitLines content).length + 1 - first)).tokens] (some content)

variable {platform limits library user model_knowledge}

theorem run_command {command text : String} {rest : List String} {segments : List (List String)}
    {piped_input : Option String} (lower : platform.lower command = command)
    (runs : runCommand platform limits library user model_knowledge command
      (extract_flags platform rest).2 (extract_flags platform rest).1 piped_input =
        some (pure text)) :
    output platform limits library user model_knowledge ((command :: rest) :: segments) piped_input =
      output platform limits library user model_knowledge segments (some text) := by
  rw [output, execute_pipeline]
  simp only [lower, runs, pure_bind]
  rfl

theorem output_nil (text : String) :
    output platform limits library user model_knowledge [] (some text) = pure text := rfl

theorem pure_exec_inj {first second : String} (same : (pure first : Exec String) = pure second) :
    first = second := by
  have results := congrFun same 0
  exact (Prod.mk.inj (Except.ok.inj results)).1

variable (digits : AsciiDigits platform)

include digits

theorem extract_numbered (n : Nat) (rest : List String) (plain : ∀ arg ∈ rest, isFlags platform arg = false) :
    extract_flags platform (("-" ++ toString n) :: rest) = ([], ("-" ++ toString n) :: rest) := by
  have all : ∀ arg ∈ ("-" ++ toString n) :: rest, isFlags platform arg = false := by
    intro arg member
    rcases List.mem_cons.mp member with rfl | later
    · exact isFlags_number digits n
    · exact plain arg later
  rw [extract_flags, List.filter_eq_nil_iff.mpr (fun arg member => by simp [all arg member]),
    List.filter_eq_self.mpr (fun arg member => by simp [all arg member])]
  rfl

theorem extract_range (first last : Nat) (rest : List String)
    (plain : ∀ arg ∈ rest, isFlags platform arg = false) :
    extract_flags platform ("-n" :: (toString first ++ "," ++ toString last ++ "p") :: rest) =
      (['n'], (toString first ++ "," ++ toString last ++ "p") :: rest) := by
  have flag := isFlags_n digits
  have range := @isFlags_range platform first last
  have none_left : rest.filter (isFlags platform) = [] :=
    List.filter_eq_nil_iff.mpr (fun arg member => by simp [plain arg member])
  have all_left : rest.filter (fun arg => !isFlags platform arg) = rest :=
    List.filter_eq_self.mpr (fun arg member => by simp [plain arg member])
  simp only [extract_flags, List.filter_cons, flag, range, none_left, all_left]
  rfl

theorem extract_numeric (n : Nat) (rest : List String) :
    extract_numeric_flag platform (("-" ++ toString n) :: rest) = (some n, rest) := by
  rw [extract_numeric_flag, numericFlag_number digits n]

theorem head_piped (n : Nat) (content : String) (segments : List (List String)) :
    output platform limits library user model_knowledge ((Selection.head n).tokens :: segments)
        (some content) =
      output platform limits library user model_knowledge segments
        (some (unlines ((splitLines content).take n))) := by
  refine run_command (platform.lower_ascii "head" (by simp)) ?_
  rw [extract_numbered digits n [] (by simp)]
  simp only [runCommand, kb_head, extract_numeric digits n [], Option.getD_some]
  rfl

theorem tail_piped (n : Nat) (content : String) (segments : List (List String)) :
    output platform limits library user model_knowledge ((Selection.tail n).tokens :: segments)
        (some content) =
      output platform limits library user model_knowledge segments
        (some (unlines (lastLines n (splitLines content)))) := by
  refine run_command (platform.lower_ascii "tail" (by simp)) ?_
  rw [extract_numbered digits n [] (by simp)]
  simp only [runCommand, kb_tail, extract_numeric digits n [], Option.getD_some]
  rfl

theorem sed_piped {first last : Nat} (positive : 1 ≤ first) (ordered : first ≤ last)
    (content : String) (segments : List (List String)) :
    output platform limits library user model_knowledge
        ((Selection.sed first last positive ordered).tokens :: segments) (some content) =
      output platform limits library user model_knowledge segments
        (some (unlines (lineSlice first last (splitLines content)))) := by
  refine run_command (platform.lower_ascii "sed" (by simp)) ?_
  have some_line : last ≠ 0 := by omega
  rw [extract_range digits first last [] (by simp)]
  simp only [runCommand, kb_sed, List.mem_singleton, if_true, List.head?_cons, Option.bind_some,
    lineRange_range digits false first last, Option.map_some, Option.getD_some, if_neg some_line]
  rfl

section File

variable {ref content : String} {found : ResolvedFile}
  (resolved : resolve_file platform library user model_knowledge ref = some (.file found))
  (text : found.content = .str content)

include resolved text

omit digits in
theorem withFile_found (use : ResolvedFile → String → Except String String) :
    withFile platform library user model_knowledge ref (fun found => do
      let content ← contentText found.content
      use found content) = use found content := by
  rw [withFile, resolved]
  simp only [text, contentText]
  rfl

theorem head_file (n : Nat) (plain : isFlags platform ref = false) :
    output platform limits library user model_knowledge [(Selection.head n).tokens ++ [ref]] none =
      pure (unlines ((splitLines content).take n) ++
        (Selection.head n).trailer (splitLines content).length) := by
  have tokens : (Selection.head n).tokens ++ [ref] = ["head", "-" ++ toString n, ref] := rfl
  rw [tokens]
  refine run_command (platform.lower_ascii "head" (by simp)) ?_
  rw [extract_numbered digits n [ref] (by simpa using plain)]
  simp only [runCommand, kb_head, extract_numeric digits n [ref], Option.getD_some, withContent,
    withFile_found resolved text, Selection.trailer]
  split
  · simp only [String.append_assoc]
    rfl
  · rw [String.append_empty]
    rfl

theorem tail_file (n : Nat) (plain : isFlags platform ref = false) :
    output platform limits library user model_knowledge [(Selection.tail n).tokens ++ [ref]] none =
      pure (unlines (lastLines n (splitLines content)) ++
        (Selection.tail n).trailer (splitLines content).length) := by
  have tokens : (Selection.tail n).tokens ++ [ref] = ["tail", "-" ++ toString n, ref] := rfl
  rw [tokens]
  refine run_command (platform.lower_ascii "tail" (by simp)) ?_
  rw [extract_numbered digits n [ref] (by simpa using plain)]
  simp only [runCommand, kb_tail, extract_numeric digits n [ref], Option.getD_some, withContent,
    withFile_found resolved text, Selection.trailer]
  split
  · simp only [String.append_assoc]
    rfl
  · rw [String.append_empty]
    rfl

theorem sed_file {first last : Nat} (positive : 1 ≤ first) (ordered : first ≤ last)
    (plain : isFlags platform ref = false) (no_range : lineRange platform true ref = none)
    (named : ref ≠ "") :
    output platform limits library user model_knowledge
        [(Selection.sed first last positive ordered).tokens ++ [ref]] none =
      pure (unlines (lineSlice first last (splitLines content)) ++
        (Selection.sed first last positive ordered).trailer (splitLines content).length) := by
  have tokens : (Selection.sed first last positive ordered).tokens ++ [ref] =
      ["sed", "-n", toString first ++ "," ++ toString last ++ "p", ref] := rfl
  have range := lineRange_range digits true first last
  rw [tokens]
  refine run_command (platform.lower_ascii "sed" (by simp)) ?_
  rw [extract_range digits first last [ref] (by simpa using plain)]
  simp only [runCommand, kb_sed, List.filterMap_cons, List.filter_cons, range, no_range,
    Option.isNone_some, Option.isNone_none, List.filterMap_nil, List.filter_nil, filled,
    List.getLast?_singleton, Option.filter_some, decide_eq_true named, if_true,
    Bool.false_eq_true, if_false, if_neg (Nat.not_lt.mpr ordered), withFile_found resolved text,
    Selection.trailer]
  simp only [String.append_assoc]
  rfl

end File

theorem selects_iff (selection : Selection) (content : String) :
    Selects platform limits library user model_knowledge selection content ↔
      (selection = .tail 0 → content = "") := by
  cases selection with
  | head n =>
    refine iff_of_true ⟨?_, ?_⟩ nofun
    · rw [head_piped digits, output_nil, Selection.lines, take_min]
    · intro ref found names resolved text
      rw [head_file digits resolved text n names, Selection.lines, take_min]
  | tail n =>
    by_cases positive : n = 0
    · subst positive
      have selected : unlines ((Selection.tail 0).lines (splitLines content)) = "" := by
        rw [Selection.lines, Nat.zero_min, Nat.sub_zero, List.drop_length]
        rfl
      have shown : unlines (lastLines 0 (splitLines content)) = content := unlines_splitLines content
      constructor
      · intro selects _
        have whole := selects.piped
        rw [tail_piped digits, output_nil, selected, shown] at whole
        exact pure_exec_inj whole
      · intro empty
        refine ⟨?_, ?_⟩
        · rw [tail_piped digits, output_nil, selected, shown, empty rfl]
        · intro ref found names resolved text
          rw [tail_file digits resolved text 0 names, selected, shown, empty rfl]
    · have other : Selection.tail n ≠ .tail 0 := fun same => positive (Selection.tail.inj same)
      refine iff_of_true ⟨?_, ?_⟩ (fun same => absurd same other)
      · rw [tail_piped digits, output_nil, Selection.lines, lastLines_eq positive]
      · intro ref found names resolved text
        rw [tail_file digits resolved text n names, Selection.lines, lastLines_eq positive]
  | sed first last positive ordered =>
    refine iff_of_true ⟨?_, ?_⟩ nofun
    · rw [sed_piped digits, output_nil, Selection.lines, take_min, lineSlice]
    · rintro ref found ⟨plain, no_range, named⟩ resolved text
      rw [sed_file digits resolved text positive ordered plain no_range named, Selection.lines, take_min,
        lineSlice]

theorem concatenates_iff {content : String} {n : Nat} (inside : n ≤ (splitLines content).length) :
    Concatenates platform limits library user model_knowledge content n ↔
      (n = (splitLines content).length → content = "") := by
  have rest : ∀ before, (splitLines content).length - n = before + 1 →
      lastLines ((splitLines content).length - n) (splitLines content) =
        (splitLines content).drop n := by
    intro before longer
    rw [lastLines, if_neg (by omega)]
    congr 1
    omega
  by_cases all : n = (splitLines content).length
  · constructor
    · rintro ⟨front, back, whole, first, second⟩ _
      rw [head_piped digits, output_nil, all, List.take_length, unlines_splitLines] at first
      rw [tail_piped digits, output_nil, all, Nat.sub_self, lastLines, if_pos rfl,
        unlines_splitLines] at second
      by_contra filled
      -- both are the whole content, so neither is empty
      have some_line : ∀ {lines : List String}, content = unlines lines → lines ≠ [] := by
        rintro lines same rfl
        exact filled same
      have front_filled := some_line (pure_exec_inj first)
      have back_filled := some_line (pure_exec_inj second)
      have read := splitLines_unlines (fun line member => whole ▸ List.mem_append_left back member)
        front_filled
      rw [← pure_exec_inj first, ← whole] at read
      exact back_filled (List.self_eq_append_right.mp read.symm)
    · intro empty
      have text := empty all
      subst text
      refine ⟨splitLines "", [], List.append_nil _, ?_, ?_⟩
      · rw [head_piped digits, output_nil, all, List.take_length]
      · rw [tail_piped digits, output_nil, all, Nat.sub_self, lastLines, if_pos rfl,
          unlines_splitLines]
        rfl
  · refine iff_of_true ⟨(splitLines content).take n, (splitLines content).drop n,
      List.take_append_drop n _, ?_, ?_⟩ (fun same => absurd same all)
    · rw [head_piped digits, output_nil]
    · rw [tail_piped digits, output_nil, rest ((splitLines content).length - n - 1) (by omega)]

theorem rangeIsTailOfHead_iff {content : String} {first last : Nat} (positive : 1 ≤ first)
    (ordered : first ≤ last) :
    RangeIsTailOfHead platform limits library user model_knowledge content first last positive
        ordered ↔ ((splitLines content).length < first → content = "") := by
  have some_line : (splitLines content).take last ≠ [] := by
    rw [ne_eq, List.take_eq_nil_iff, not_or]
    exact ⟨by omega, splitLines_ne_nil content⟩
  have read := splitLines_unlines (fun line member => List.mem_of_mem_take member) some_line
  rw [RangeIsTailOfHead, sed_piped digits, head_piped digits, tail_piped digits, read, output_nil,
    output_nil]
  by_cases beyond : (splitLines content).length < first
  · have whole : (splitLines content).take last = splitLines content :=
      List.take_of_length_le (by omega)
    have none_left : min last (splitLines content).length + 1 - first = 0 := by omega
    rw [none_left, lastLines, if_pos rfl, lineSlice, whole, unlines_splitLines,
      List.drop_eq_nil_of_le (by omega)]
    constructor
    · exact fun same _ => (pure_exec_inj same).symm
    · intro empty
      rw [empty beyond]
      rfl
  · refine iff_of_true ?_ (fun other => absurd other beyond)
    have number : min last (splitLines content).length + 1 - first ≠ 0 := by omega
    rw [lastLines, if_neg number, lineSlice, List.length_take]
    congr 3
    omega

/-- When the commands select the lines they are to select, when the first lines and the last ones
make up the content, and when a range is the last of the first lines. -/
theorem line_selection_iff (content : String) :
    (∀ selection, Selects platform limits library user model_knowledge selection content ↔
        (selection = .tail 0 → content = "")) ∧
      (∀ n ≤ (splitLines content).length,
        Concatenates platform limits library user model_knowledge content n ↔
          (n = (splitLines content).length → content = "")) ∧
      ∀ first last positive ordered,
        RangeIsTailOfHead platform limits library user model_knowledge content first last positive
            ordered ↔ ((splitLines content).length < first → content = "") :=
  ⟨fun selection => selects_iff digits selection content,
    fun _ inside => concatenates_iff digits inside,
    fun _ _ positive ordered => rangeIsTailOfHead_iff digits positive ordered⟩

end Selects

theorem ascii_digits : AsciiDigits ascii := ⟨fun _ _ => rfl, fun _ _ => rfl⟩

theorem last_line_selected :
    Selects ascii defaults alone reader [] (.tail 1) "a\nb" :=
  ((line_selection_iff ascii_digits "a\nb").1 (.tail 1)).mpr (by simp)

/-- Of two lines `tail -0` shows both. -/
theorem tail_zero_shows_all : ¬ ∀ platform limits library user model_knowledge,
    AsciiDigits platform → ∀ selection content,
      Selects platform limits library user model_knowledge selection content := by
  intro selects
  have piped := (selects ascii defaults alone reader [] ascii_digits (.tail 0) "a\nb").piped
  exact absurd (pure_exec_inj piped) (by decide)

end OpenWebui.KnowledgeFs
