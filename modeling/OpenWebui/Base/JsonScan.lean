import OpenWebui.Base.Text

/-! Where a decoder of JSON stops reading. -/

namespace OpenWebui.JsonScan

inductive ScanError where
  | jsonDecodeError
  | valueError
  | recursionError
  deriving DecidableEq

/-- `sys.get_int_max_str_digits()` and the recursion that is left to the decoder. -/
structure Limits where
  digits : Nat
  depth : Nat

/-- A part of the text has been read, and the last character of it is no white space. -/
def Reads (text rest : List Char) : Prop :=
  ∃ (read : List Char) (last : Char), text = read ++ last :: rest ∧ Text.isSpace last = false

theorem Reads.shorter {text rest : List Char} (reads : Reads text rest) :
    rest.length < text.length := by
  obtain ⟨read, last, rfl, -⟩ := reads
  simp only [List.length_append, List.length_cons]
  omega

theorem Reads.one {char : Char} {rest : List Char} (visible : Text.isSpace char = false) :
    Reads (char :: rest) rest := ⟨[], char, rfl, visible⟩

theorem Reads.after {text rest : List Char} (reads : Reads text rest) (skipped : List Char) :
    Reads (skipped ++ text) rest := by
  obtain ⟨read, last, rfl, visible⟩ := reads
  exact ⟨skipped ++ read, last, by rw [List.append_assoc], visible⟩

theorem Reads.trans {text middle rest : List Char} (first : Reads text middle)
    (second : Reads middle rest) : Reads text rest := by
  obtain ⟨read, last, rfl, -⟩ := first
  have joined := second.after (read ++ [last])
  rwa [List.append_assoc] at joined

/-- A scanner of values, which reads at least one character. -/
structure Scanner where
  scan : List Char → Except ScanError (List Char)
  reads : ∀ {text rest : List Char}, scan text = .ok rest → Reads text rest

def isWhitespace (char : Char) : Bool :=
  char == ' ' || char == '\t' || char == '\n' || char == '\r'

def skip (text : List Char) : List Char := text.dropWhile isWhitespace

theorem Reads.of_skip {text rest : List Char} (reads : Reads (skip text) rest) :
    Reads text rest := by
  have joined := reads.after (text.takeWhile isWhitespace)
  rwa [skip, List.takeWhile_append_dropWhile] at joined

def expect (char : Char) : List Char → Except ScanError (List Char)
  | [] => .error .jsonDecodeError
  | first :: rest => if first = char then .ok rest else .error .jsonDecodeError

theorem expect_eq_ok {char : Char} {text rest : List Char} :
    expect char text = .ok rest ↔ text = char :: rest := by
  cases text with
  | nil => simp [expect]
  | cons first later =>
    simp only [expect, List.cons.injEq]
    split
    · rename_i same
      simp [same]
    · rename_i other
      simp [other]

theorem reads_expect {char : Char} (visible : Text.isSpace char = false) {text rest : List Char}
    (found : expect char text = .ok rest) : Reads text rest := by
  rw [expect_eq_ok.mp found]
  exact Reads.one visible

def isHex (char : Char) : Bool :=
  char.isDigit || ('a' ≤ char && char ≤ 'f') || ('A' ≤ char && char ≤ 'F')

/-- The characters that may follow a backslash, `u` apart. -/
def escapes : List Char := ['"', '\\', '/', 'b', 'f', 'n', 'r', 't']

def scanstring : List Char → Except ScanError (List Char)
  | [] => .error .jsonDecodeError
  | char :: rest =>
    if char = '"' then .ok rest
    else if char = '\\' then
      match rest with
      | [] => .error .jsonDecodeError
      | escape :: later =>
        if escape ∈ escapes then scanstring later
        else if escape = 'u' then
          match later with
          | first :: second :: third :: fourth :: after =>
            if [first, second, third, fourth].all isHex then scanstring after
            else .error .jsonDecodeError
          | _ => .error .jsonDecodeError
        else .error .jsonDecodeError
    else if char.toNat < 0x20 then .error .jsonDecodeError
    else scanstring rest

theorem scanstring_quote (rest : List Char) : scanstring ('"' :: rest) = .ok rest := by
  rw [scanstring.eq_def]
  exact if_pos rfl

theorem scanstring_plain {char : Char} (quote : char ≠ '"') (escape : char ≠ '\\')
    (control : ¬ char.toNat < 0x20) (rest : List Char) :
    scanstring (char :: rest) = scanstring rest := by
  rw [scanstring.eq_def]
  simp only [if_neg quote, if_neg escape, if_neg control]

theorem reads_scanstring {text rest : List Char} (scanned : scanstring text = .ok rest) :
    Reads text rest := by
  fun_induction scanstring text with
  | case1 => cases scanned
  | case2 later =>
    cases scanned
    exact Reads.one (by decide)
  | case3 => cases scanned
  | case4 escape later _ _ ih => exact (ih scanned).after ['\\', escape]
  | case5 first second third fourth after _ _ _ ih =>
    exact (ih scanned).after ['\\', 'u', first, second, third, fourth]
  | case6 => cases scanned
  | case7 => cases scanned
  | case8 => cases scanned
  | case9 => cases scanned
  | case10 char later _ _ _ ih => exact (ih scanned).after [char]

theorem digit_visible {char : Char} (digit : char.isDigit = true) :
    Text.isSpace char = false := by
  simp only [Char.isDigit, Bool.and_eq_true, decide_eq_true_eq, ge_iff_le,
    UInt32.le_iff_toNat_le] at digit
  simp only [Text.isSpace, Char.toNat, Bool.or_eq_false_iff, decide_eq_false_iff_not]
  have low : 48 ≤ char.val.toNat := digit.1
  have high : char.val.toNat ≤ 57 := digit.2
  omega

def afterDigits (text : List Char) : List Char := text.dropWhile Char.isDigit

theorem reads_afterDigits {char : Char} (digit : char.isDigit = true) (text : List Char) :
    Reads (char :: text) (afterDigits text) := by
  induction text generalizing char with
  | nil => exact Reads.one (digit_visible digit)
  | cons next rest ih =>
    rw [afterDigits, List.dropWhile_cons]
    split
    · rename_i more
      exact (ih more).after [char]
    · exact Reads.one (digit_visible digit)

/-- The text after `.` and digits, if it starts with these. -/
def afterFraction (text : List Char) : List Char :=
  match text with
  | point :: digit :: rest => if point = '.' ∧ digit.isDigit = true then afterDigits rest else text
  | _ => text

def afterSign (text : List Char) : List Char :=
  match text with
  | [] => []
  | sign :: rest => if sign = '+' ∨ sign = '-' then rest else text

def afterExponent (text : List Char) : List Char :=
  match text with
  | [] => []
  | letter :: rest =>
    if letter = 'e' ∨ letter = 'E' then
      match afterSign rest with
      | [] => text
      | digit :: later => if digit.isDigit then afterDigits later else text
    else text

theorem afterFraction_cases (text : List Char) :
    afterFraction text = text ∨ Reads text (afterFraction text) := by
  unfold afterFraction
  split
  · rename_i point digit rest
    split
    · rename_i both
      right
      exact (reads_afterDigits both.2 rest).after [point]
    · left
      rfl
  · left
    rfl

theorem afterSign_suffix (text : List Char) : ∃ sign, text = sign ++ afterSign text := by
  unfold afterSign
  split
  · exact ⟨[], rfl⟩
  · rename_i sign rest
    split
    · exact ⟨[sign], rfl⟩
    · exact ⟨[], rfl⟩

theorem afterExponent_cases (text : List Char) :
    afterExponent text = text ∨ Reads text (afterExponent text) := by
  unfold afterExponent
  split
  · left
    rfl
  · rename_i letter rest
    obtain ⟨sign, parts⟩ := afterSign_suffix rest
    split
    · split
      · left
        rfl
      · rename_i digit later unsigned
        split
        · rename_i number
          right
          rw [parts, unsigned]
          exact (reads_afterDigits number later).after (letter :: sign)
        · left
          rfl
    · left
      rfl

/-- The rest of a number whose integer part has been read: a float, or an integer that is
converted, which may have too many digits. -/
def finishNumber (limit digits : Nat) (text : List Char) : Except ScanError (List Char) :=
  let rest := afterExponent (afterFraction text)
  if rest = text ∧ limit < digits then .error .valueError else .ok rest

def match_number (limit : Nat) (text : List Char) : Except ScanError (List Char) :=
  match (if text.head? = some '-' then text.drop 1 else text) with
  | [] => .error .jsonDecodeError
  | first :: rest =>
    if first = '0' then finishNumber limit 1 rest
    else if first.isDigit then
      finishNumber limit ((rest.takeWhile Char.isDigit).length + 1) (afterDigits rest)
    else .error .jsonDecodeError

theorem finishNumber_cases {limit digits : Nat} {text rest : List Char}
    (finished : finishNumber limit digits text = .ok rest) : rest = text ∨ Reads text rest := by
  simp only [finishNumber] at finished
  split at finished
  · cases finished
  · cases finished
    rcases afterFraction_cases text with none | fraction
    · rw [none]
      exact afterExponent_cases text
    · right
      rcases afterExponent_cases (afterFraction text) with none | exponent
      · rw [none]
        exact fraction
      · exact fraction.trans exponent

theorem reads_match_number {limit : Nat} {text rest : List Char}
    (matched : match_number limit text = .ok rest) : Reads text rest := by
  have signed : ∃ sign, text = sign ++ (if text.head? = some '-' then text.drop 1 else text) := by
    split
    · exact ⟨text.take 1, (List.take_append_drop 1 text).symm⟩
    · exact ⟨[], rfl⟩
  obtain ⟨sign, parts⟩ := signed
  rw [parts]
  apply Reads.after
  rw [match_number] at matched
  split at matched
  · cases matched
  · rename_i first later unsigned
    rw [unsigned]
    have start : ∀ {middle : List Char}, Reads (first :: later) middle →
        ∀ {digits : Nat}, finishNumber limit digits middle = .ok rest →
          Reads (first :: later) rest := by
      intro middle integer digits finished
      rcases finishNumber_cases finished with rfl | more
      · exact integer
      · exact integer.trans more
    split at matched
    · rename_i zero
      apply start _ matched
      apply Reads.one
      rw [zero]
      decide
    · split at matched
      · rename_i digit
        exact start (reads_afterDigits digit later) matched
      · cases matched

def literals : List (List Char) :=
  ["null".toList, "true".toList, "false".toList, "NaN".toList, "Infinity".toList,
    "-Infinity".toList]

theorem literals_end {literal : List Char} (member : literal ∈ literals) :
    ∃ (read : List Char) (last : Char), literal = read ++ [last] ∧ Text.isSpace last = false := by
  have shown : ∀ literal ∈ literals, literal = literal.dropLast ++ [literal.getLast?.getD ' '] ∧
      Text.isSpace (literal.getLast?.getD ' ') = false := by decide
  exact ⟨_, _, shown literal member⟩

theorem skip_length_le (text : List Char) : (skip text).length ≤ text.length :=
  (List.dropWhile_sublist isWhitespace).length_le

def entries (close : Char) (entry : Scanner) (text : List Char) :
    Except ScanError (List Char) :=
  match scanned : entry.scan text with
  | .error error => .error error
  | .ok rest =>
    if (skip rest).head? = some close then .ok ((skip rest).drop 1)
    else
      match more : expect ',' (skip rest) with
      | .error error => .error error
      | .ok next => entries close entry (skip next)
termination_by text.length
decreasing_by
  have entryRead : rest.length < text.length := (entry.reads scanned).shorter
  have commaRead : next.length < (skip rest).length := by
    rw [expect_eq_ok.mp more, List.length_cons]
    exact Nat.lt_succ_self _
  have before : (skip rest).length ≤ rest.length := skip_length_le rest
  have after : (skip next).length ≤ next.length := skip_length_le next
  omega

theorem reads_head {close : Char} (visible : Text.isSpace close = false) {text : List Char}
    (closed : (skip text).head? = some close) : Reads text ((skip text).drop 1) := by
  apply Reads.of_skip
  obtain ⟨rest, parts⟩ := List.head?_eq_some_iff.mp closed
  rw [parts]
  exact Reads.one visible

theorem reads_entries {close : Char} (visible : Text.isSpace close = false) {entry : Scanner}
    {text rest : List Char} (scanned : entries close entry text = .ok rest) :
    Reads text rest := by
  fun_induction entries close entry text with
  | case1 => cases scanned
  | case2 text middle found closed =>
    cases scanned
    exact (entry.reads found).trans (reads_head visible closed)
  | case3 => cases scanned
  | case4 text middle found _ next comma ih =>
    have reached : Reads text next :=
      (entry.reads found).trans (Reads.of_skip (reads_expect (by decide) comma))
    exact reached.trans (Reads.of_skip (ih scanned))

def container (close : Char) (entry : Scanner) (text : List Char) :
    Except ScanError (List Char) :=
  if (skip text).head? = some close then .ok ((skip text).drop 1)
  else entries close entry (skip text)

theorem reads_container {close : Char} (visible : Text.isSpace close = false) {entry : Scanner}
    {text rest : List Char} (scanned : container close entry text = .ok rest) :
    Reads text rest := by
  unfold container at scanned
  split at scanned
  · rename_i closed
    cases scanned
    exact reads_head visible closed
  · exact Reads.of_skip (reads_entries visible scanned)

def member (value : Scanner) : Scanner where
  scan := fun text => do
    let key ← expect '"' text
    let afterKey ← scanstring key
    let start ← expect ':' (skip afterKey)
    value.scan (skip start)
  reads := by
    intro text rest scanned
    obtain ⟨key, quote, scanned⟩ := bind_eq_ok.mp scanned
    obtain ⟨afterKey, string, scanned⟩ := bind_eq_ok.mp scanned
    obtain ⟨start, colon, scanned⟩ := bind_eq_ok.mp scanned
    have keyRead : Reads text afterKey :=
      (reads_expect (by decide) quote).trans (reads_scanstring string)
    have colonRead : Reads text start :=
      keyRead.trans (Reads.of_skip (reads_expect (by decide) colon))
    exact colonRead.trans (Reads.of_skip (value.reads scanned))

def parse_object (value : Scanner) (text : List Char) : Except ScanError (List Char) :=
  container '\x7d' (member value) text

def parse_array (value : Scanner) (text : List Char) : Except ScanError (List Char) :=
  container ']' value text

/-- A value, with `object` and `array` reading the containers. -/
def scanValue (limit : Nat) (object array : List Char → Except ScanError (List Char)) :
    List Char → Except ScanError (List Char)
  | [] => .error .jsonDecodeError
  | char :: rest =>
    if char = '"' then scanstring rest
    else if char = '\x7b' then object rest
    else if char = '[' then array rest
    else
      match literals.find? (fun literal => literal.isPrefixOf (char :: rest)) with
      | some literal => .ok ((char :: rest).drop literal.length)
      | none => match_number limit (char :: rest)

theorem reads_scanValue {limit : Nat} {object array : List Char → Except ScanError (List Char)}
    (ofObject : ∀ {text rest : List Char}, object text = .ok rest → Reads text rest)
    (ofArray : ∀ {text rest : List Char}, array text = .ok rest → Reads text rest)
    {text rest : List Char} (scanned : scanValue limit object array text = .ok rest) :
    Reads text rest := by
  cases text with
  | nil => cases scanned
  | cons char later =>
    simp only [scanValue] at scanned
    split at scanned
    · exact (reads_scanstring scanned).after [char]
    · split at scanned
      · exact (ofObject scanned).after [char]
      · split at scanned
        · exact (ofArray scanned).after [char]
        · split at scanned
          · rename_i literal found
            cases scanned
            obtain ⟨fits, -⟩ := List.find?_eq_some_iff_append.mp found
            obtain ⟨after, parts⟩ := List.isPrefixOf_iff_prefix.mp fits
            obtain ⟨read, last, spelled, visible⟩ :=
              literals_end (List.mem_of_find?_eq_some found)
            rw [← parts, List.drop_left]
            exact ⟨read, last, by rw [spelled, List.append_assoc]; rfl, visible⟩
          · exact reads_match_number scanned

/-- `scan_once`, with the recursion that is left: a container takes one of it. -/
def scan_once (limit : Nat) : Nat → Scanner
  | 0 =>
    { scan := scanValue limit (fun _ => .error .recursionError) (fun _ => .error .recursionError)
      reads := reads_scanValue (by intro _ _ raised; cases raised)
        (by intro _ _ raised; cases raised) }
  | depth + 1 =>
    { scan := scanValue limit (parse_object (scan_once limit depth))
        (parse_array (scan_once limit depth))
      reads := reads_scanValue (reads_container (by decide)) (reads_container (by decide)) }

/-- `JSONDecoder().raw_decode(text, position)` on the text from that position. -/
def raw_decode (limits : Limits) (text : List Char) : Except ScanError (List Char) :=
  (scan_once limits.digits limits.depth).scan text

theorem reads_raw_decode {limits : Limits} {text rest : List Char}
    (decoded : raw_decode limits text = .ok rest) : Reads text rest :=
  (scan_once limits.digits limits.depth).reads decoded

end OpenWebui.JsonScan
