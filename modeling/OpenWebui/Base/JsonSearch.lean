import Mathlib.Data.List.Basic
import Mathlib.Data.List.Infix
import OpenWebui.Base.Like

/-! The ASCII text that `json.dumps` writes for texts and objects, and its segments between
quotation marks. -/

namespace OpenWebui.JsonText

def hexDigit (value : Nat) : Char := Char.ofNat (if value < 10 then 48 + value else 87 + value)

/-- `\uXXXX`. -/
def unicodeEscape (code : Nat) : List Char :=
  ['\\', 'u', hexDigit (code / 4096 % 16), hexDigit (code / 256 % 16), hexDigit (code / 16 % 16),
    hexDigit (code % 16)]

def shortEscapes : List (Char × Char) :=
  [('"', '"'), ('\\', '\\'), ('\n', 'n'), ('\r', 'r'), ('\t', 't'), ('\x0c', 'f'), ('\x08', 'b')]

def escapeChar (char : Char) : List Char :=
  match shortEscapes.lookup char with
  | some letter => ['\\', letter]
  | none =>
    if 32 ≤ char.toNat ∧ char.toNat ≤ 126 then [char]
    else if char.toNat < 65536 then unicodeEscape char.toNat
    else unicodeEscape (55296 + (char.toNat - 65536) / 1024) ++
      unicodeEscape (56320 + (char.toNat - 65536) % 1024)

def escape (text : List Char) : List Char := text.flatMap escapeChar

def dumpsString (text : List Char) : List Char := '"' :: (escape text ++ ['"'])

def dumpsObject (fields : List (List Char × List Char)) : List Char :=
  '{' :: ([',', ' '].intercalate (fields.map (fun field =>
    dumpsString field.1 ++ ':' :: ' ' :: field.2)) ++ ['}'])

def hexValue (digit : Char) : Nat :=
  if digit.toNat < 58 then digit.toNat - 48 else digit.toNat - 87

/-- The code after `\u`. -/
def readCode : List Char → Nat × List Char
  | first :: second :: third :: fourth :: rest =>
    (((hexValue first * 16 + hexValue second) * 16 + hexValue third) * 16 + hexValue fourth, rest)
  | _ => (0, [])

/-- The character after `\u`, of a pair of escapes where the first is a high surrogate. -/
def readUnicode (text : List Char) : Char × List Char :=
  let (code, rest) := readCode text
  if 55296 ≤ code ∧ code < 56320 then
    let (low, later) := readCode (rest.drop 2)
    (Char.ofNat (65536 + (code - 55296) * 1024 + (low - 56320)), later)
  else (Char.ofNat code, rest)

def readEscape : List Char → Option (Char × List Char)
  | [] => none
  | letter :: rest =>
    if letter = 'u' then some (readUnicode rest)
    else (shortEscapes.find? (fun pair => pair.2 = letter)).map (fun pair => (pair.1, rest))

def readChar : List Char → Option (Char × List Char)
  | [] => none
  | first :: rest => if first = '\\' then readEscape rest else some (first, rest)

theorem hexValue_hexDigit : ∀ value < 16, hexValue (hexDigit value) = value := by decide

theorem readCode_unicodeEscape {code : Nat} (small : code < 65536) (rest : List Char) :
    readCode ((unicodeEscape code).drop 2 ++ rest) = (code, rest) := by
  have digit : ∀ value : Nat, hexValue (hexDigit (value % 16)) = value % 16 :=
    fun value => hexValue_hexDigit _ (Nat.mod_lt value (by decide))
  simp only [unicodeEscape, List.drop_succ_cons, List.drop_zero, List.cons_append, List.nil_append,
    readCode, digit, Prod.mk.injEq, and_true]
  omega

theorem mem_of_lookup_short {char letter : Char} (found : shortEscapes.lookup char = some letter) :
    (char, letter) ∈ shortEscapes := by
  obtain ⟨before, after, same, _⟩ := List.lookup_eq_some_iff.mp found
  rw [same]
  simp

theorem readChar_short : ∀ pair ∈ shortEscapes, ∀ rest : List Char,
    readChar ('\\' :: pair.2 :: rest) = some (pair.1, rest) := by
  have apart : ∀ pair ∈ shortEscapes, pair.2 ≠ 'u' ∧
      shortEscapes.find? (fun other => other.2 = pair.2) = some pair := by decide
  intro pair member rest
  obtain ⟨letter, found⟩ := apart pair member
  rw [readChar, if_pos rfl, readEscape, if_neg letter, found]
  rfl

theorem readChar_unicode {code : Nat} (small : code < 55296 ∨ 57343 < code) (bound : code < 65536)
    (rest : List Char) :
    readChar (unicodeEscape code ++ rest) = some (Char.ofNat code, rest) := by
  have shape : unicodeEscape code ++ rest = '\\' :: 'u' :: ((unicodeEscape code).drop 2 ++ rest) := rfl
  rw [shape, readChar, if_pos rfl, readEscape, if_pos rfl, readUnicode, readCode_unicodeEscape bound]
  dsimp only
  rw [if_neg (by omega)]

theorem readChar_pair {high low : Nat} (first : high < 1024) (second : low < 1024)
    (rest : List Char) :
    readChar (unicodeEscape (55296 + high) ++ unicodeEscape (56320 + low) ++ rest) =
      some (Char.ofNat (65536 + high * 1024 + low), rest) := by
  have shape : unicodeEscape (55296 + high) ++ unicodeEscape (56320 + low) ++ rest =
      '\\' :: 'u' :: ((unicodeEscape (55296 + high)).drop 2 ++
        (unicodeEscape (56320 + low) ++ rest)) := by
    rw [List.append_assoc]
    rfl
  have later : (unicodeEscape (56320 + low) ++ rest).drop 2 =
      (unicodeEscape (56320 + low)).drop 2 ++ rest := rfl
  have code : 65536 + (55296 + high - 55296) * 1024 + (56320 + low - 56320) =
      65536 + high * 1024 + low := by omega
  rw [shape, readChar, if_pos rfl, readEscape, if_pos rfl, readUnicode,
    readCode_unicodeEscape (by omega)]
  dsimp only
  rw [if_pos (by omega), later, readCode_unicodeEscape (by omega)]
  dsimp only
  rw [code]

theorem toNat_bounds (char : Char) :
    (char.toNat < 55296 ∨ 57343 < char.toNat) ∧ char.toNat < 1114112 := by
  rcases char.valid with small | ⟨above, bound⟩
  · refine ⟨Or.inl small, ?_⟩
    have : char.toNat < 55296 := small
    omega
  · exact ⟨Or.inr above, bound⟩

theorem readChar_escapeChar (char : Char) (rest : List Char) :
    readChar (escapeChar char ++ rest) = some (char, rest) := by
  obtain ⟨apart, bound⟩ := toNat_bounds char
  unfold escapeChar
  split
  · rename_i letter found
    exact readChar_short (char, letter) (mem_of_lookup_short found) rest
  · rename_i other
    have plain : char ≠ '\\' := by
      rintro rfl
      simp [shortEscapes] at other
    split
    · rw [List.singleton_append, readChar, if_neg plain]
    · split
      · rename_i small
        rw [readChar_unicode apart small, Char.ofNat_toNat]
      · have code : 65536 + (char.toNat - 65536) / 1024 * 1024 + (char.toNat - 65536) % 1024 =
            char.toNat := by omega
        rw [readChar_pair (by omega) (Nat.mod_lt _ (by decide)), code, Char.ofNat_toNat]

theorem escape_injective {first second : List Char} (same : escape first = escape second) :
    first = second := by
  induction first generalizing second with
  | nil =>
    cases second with
    | nil => rfl
    | cons char rest =>
      have read := readChar_escapeChar char (escape rest)
      rw [show escapeChar char ++ escape rest = [] from same.symm] at read
      cases read
  | cons char rest ih =>
    have read := readChar_escapeChar char (escape rest)
    rw [show escapeChar char ++ escape rest = escape second from same] at read
    cases second with
    | nil => cases read
    | cons other later =>
      have again := readChar_escapeChar other (escape later)
      rw [show escapeChar other ++ escape later = escape (other :: later) from rfl, read] at again
      obtain ⟨rfl, remains⟩ := Prod.mk.inj (Option.some.inj again)
      rw [ih remains]

open Like (lower lower_cons lower_append)

theorem toLower_of_upper : ∀ code < 91, 65 ≤ code →
    lower (escapeChar (Char.ofNat code)) = escapeChar (Char.ofNat code).toLower := by decide

theorem toLower_eq_self {char : Char} (other : ¬ (65 ≤ char.toNat ∧ char.toNat ≤ 90)) :
    char.toLower = char := by
  unfold Char.toLower
  rw [dif_neg]
  exact other

theorem lower_hexDigit : ∀ value < 16, (hexDigit value).toLower = hexDigit value := by decide

theorem lower_unicodeEscape (code : Nat) : lower (unicodeEscape code) = unicodeEscape code := by
  have digit : ∀ value : Nat, (hexDigit (value % 16)).toLower = hexDigit (value % 16) :=
    fun value => lower_hexDigit _ (Nat.mod_lt value (by decide))
  simp only [unicodeEscape, lower_cons, Like.lower_nil, digit]
  rfl

theorem lower_short : ∀ pair ∈ shortEscapes, pair.2.toLower = pair.2 := by decide

theorem lower_escapeChar (char : Char) : lower (escapeChar char) = escapeChar char.toLower := by
  by_cases upper : 65 ≤ char.toNat ∧ char.toNat ≤ 90
  · have found := toLower_of_upper char.toNat (by omega) upper.1
    rwa [Char.ofNat_toNat] at found
  · rw [toLower_eq_self upper]
    unfold escapeChar
    split
    · rename_i letter found
      have same := lower_short (char, letter) (mem_of_lookup_short found)
      rw [lower_cons, lower_cons, same]
      rfl
    · split
      · rw [lower_cons, toLower_eq_self upper]
        rfl
      · split
        · exact lower_unicodeEscape _
        · rw [lower_append, lower_unicodeEscape, lower_unicodeEscape]

theorem lower_escape (text : List Char) : lower (escape text) = escape (lower text) := by
  induction text with
  | nil => rfl
  | cons char rest ih =>
    rw [escape, List.flatMap_cons, lower_append, lower_escapeChar]
    exact congrArg _ ih

def escapeLetters : List Char :=
  '\\' :: 'u' :: (List.range 16).map hexDigit ++ shortEscapes.map Prod.snd

theorem mem_unicodeEscape {code : Nat} {sign : Char} (member : sign ∈ unicodeEscape code) :
    sign ∈ escapeLetters := by
  have digit : ∀ value : Nat, hexDigit (value % 16) ∈ escapeLetters := by
    intro value
    have small : value % 16 < 16 := Nat.mod_lt value (by decide)
    simp only [escapeLetters, List.cons_append, List.mem_cons, List.mem_append, List.mem_map,
      List.mem_range]
    exact Or.inr (Or.inr (Or.inl ⟨_, small, rfl⟩))
  simp only [unicodeEscape, List.mem_cons, List.not_mem_nil, or_false] at member
  rcases member with rfl | rfl | rfl | rfl | rfl | rfl
  · decide
  · decide
  all_goals exact digit _

theorem mem_escapeChar {char sign : Char} (member : sign ∈ escapeChar char) :
    sign = char ∨ sign ∈ escapeLetters := by
  unfold escapeChar at member
  split at member
  · rename_i letter found
    have short := List.mem_map_of_mem (f := Prod.snd) (mem_of_lookup_short found)
    right
    rcases List.mem_cons.mp member with rfl | later
    · decide
    · obtain rfl := List.mem_singleton.mp later
      exact List.mem_append_right _ short
  · split at member
    · exact Or.inl (List.mem_singleton.mp member)
    · split at member
      · exact Or.inr (mem_unicodeEscape member)
      · exact Or.inr ((List.mem_append.mp member).elim mem_unicodeEscape mem_unicodeEscape)

theorem not_mem_escape {text : List Char} {sign : Char} (letter : sign ∉ escapeLetters)
    (free : sign ∉ text) : sign ∉ escape text := by
  intro member
  obtain ⟨char, inside, found⟩ := List.mem_flatMap.mp member
  rcases mem_escapeChar found with rfl | other
  · exact free inside
  · exact letter other

def extend (before : List Char) : List (List Char) → List (List Char)
  | [] => [before]
  | first :: rest => (before ++ first) :: rest

def segments (escaped : Bool) : List Char → List (List Char)
  | [] => [[]]
  | char :: rest =>
    if escaped then extend [char] (segments false rest)
    else if char = '"' then [] :: segments false rest
    else extend [char] (segments (decide (char = '\\')) rest)

/-- The text ends in the segment it begins in, outside an escape. -/
def Inner (text : List Char) : Prop :=
  ∀ rest, segments false (text ++ rest) = extend text (segments false rest)

theorem segments_ne_nil (escaped : Bool) (text : List Char) : segments escaped text ≠ [] := by
  cases text with
  | nil => simp [segments]
  | cons char rest =>
    have extended : ∀ found : List (List Char), extend [char] found ≠ [] := by
      intro found
      cases found <;> simp [extend]
    rw [segments]
    split
    · exact extended _
    · split
      · simp
      · exact extended _

theorem extend_extend (first second : List Char) (found : List (List Char)) :
    extend first (extend second found) = extend (first ++ second) found := by
  cases found <;> simp [extend]

theorem inner_nil : Inner [] := by
  intro rest
  cases found : segments false rest with
  | nil => exact absurd found (segments_ne_nil false rest)
  | cons first later => simp [extend, found]

theorem inner_append {first second : List Char} (one : Inner first) (two : Inner second) :
    Inner (first ++ second) := by
  intro rest
  rw [List.append_assoc, one, two, extend_extend]

theorem inner_cons {char : Char} (mark : char ≠ '"') (slash : char ≠ '\\') {text : List Char}
    (inner : Inner text) : Inner (char :: text) := by
  intro rest
  rw [List.cons_append, segments, if_neg Bool.false_ne_true, if_neg mark, decide_eq_false slash,
    inner, extend_extend]
  rfl

theorem inner_escaped (char : Char) {text : List Char} (inner : Inner text) :
    Inner ('\\' :: char :: text) := by
  intro rest
  rw [List.cons_append, List.cons_append, segments, if_neg Bool.false_ne_true, if_neg (by decide),
    decide_eq_true rfl, segments, if_pos rfl, inner, extend_extend, extend_extend]
  rfl

theorem inner_of_plain {text : List Char} (mark : '"' ∉ text) (slash : '\\' ∉ text) :
    Inner text := by
  induction text with
  | nil => exact inner_nil
  | cons char rest ih =>
    rw [List.mem_cons, not_or] at mark slash
    exact inner_cons (Ne.symm mark.1) (Ne.symm slash.1) (ih mark.2 slash.2)

theorem plain_hexDigit : ∀ value < 16, hexDigit value ≠ '"' ∧ hexDigit value ≠ '\\' := by decide

theorem inner_unicodeEscape (code : Nat) : Inner (unicodeEscape code) := by
  have digit : ∀ value : Nat, hexDigit (value % 16) ≠ '"' ∧ hexDigit (value % 16) ≠ '\\' :=
    fun value => plain_hexDigit _ (Nat.mod_lt value (by decide))
  refine inner_escaped 'u' (inner_of_plain ?_ ?_)
  · simp [Ne.symm (digit _).1]
  · simp [Ne.symm (digit _).2]

theorem inner_escapeChar (char : Char) : Inner (escapeChar char) := by
  unfold escapeChar
  split
  · exact inner_escaped _ inner_nil
  · rename_i other
    split
    · refine inner_cons ?_ ?_ inner_nil
      all_goals
        rintro rfl
        simp [shortEscapes] at other
    · split
      · exact inner_unicodeEscape _
      · exact inner_append (inner_unicodeEscape _) (inner_unicodeEscape _)

theorem inner_escape (text : List Char) : Inner (escape text) := by
  induction text with
  | nil => exact inner_nil
  | cons char rest ih => exact inner_append (inner_escapeChar char) ih

theorem Inner.segments_mark {text : List Char} (inner : Inner text) (rest : List Char) :
    segments false (text ++ '"' :: rest) = text :: segments false rest := by
  rw [inner, segments, if_neg Bool.false_ne_true, if_pos rfl, extend, List.append_nil]

theorem segments_brace (before rest : List Char) (escaped : Bool) : ∃ front last,
    segments escaped (before ++ '{' :: '"' :: rest) =
      front ++ (last ++ ['{']) :: segments false rest ∧ (front = [] → last = before) := by
  induction before generalizing escaped with
  | nil =>
    refine ⟨[], [], ?_, fun _ => rfl⟩
    have marked : segments false ('"' :: rest) = [] :: segments false rest := by
      rw [segments, if_neg Bool.false_ne_true, if_pos rfl]
    cases escaped with
    | true => rw [List.nil_append, segments, if_pos rfl, marked, extend]; rfl
    | false =>
      rw [List.nil_append, segments, if_neg Bool.false_ne_true, if_neg (by decide),
        decide_eq_false (by decide), marked, extend]
      rfl
  | cons char before ih =>
    have longer : ∀ flag, ∃ front last,
        extend [char] (segments flag (before ++ '{' :: '"' :: rest)) =
          front ++ (last ++ ['{']) :: segments false rest ∧ (front = [] → last = char :: before) := by
      intro flag
      obtain ⟨front, last, found, whole⟩ := ih flag
      rw [found]
      cases front with
      | nil => exact ⟨[], char :: last, rfl, fun _ => by rw [whole rfl]⟩
      | cons first front => exact ⟨(char :: first) :: front, last, rfl, fun none => by cases none⟩
    rw [List.cons_append, segments]
    split
    · exact longer false
    · split
      · obtain ⟨front, last, found, _⟩ := ih false
        exact ⟨[] :: front, last, by rw [found]; rfl, fun none => by cases none⟩
      · exact longer _

end OpenWebui.JsonText
