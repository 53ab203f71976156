import Mathlib.Data.List.Basic
import Mathlib.Data.List.Induction
import Mathlib.Data.List.TakeWhile
import OpenWebui.Base.Text

/-! How a URL is put together and read: percent-encoding, query strings, and the removal of dot
segments. -/

namespace OpenWebui.Url

def structural : List Char := ['/', '?', '#', '{', '}', '&', '=', '+', ':']

def hexDigits : List Char :=
  ['0', '1', '2', '3', '4', '5', '6', '7', '8', '9', 'A', 'B', 'C', 'D', 'E', 'F']

/-- The bytes of ASCII letters, digits and `_.-~`. -/
def unreserved (byte : UInt8) : Bool :=
  (48 ≤ byte ∧ byte ≤ 57) ∨ (65 ≤ byte ∧ byte ≤ 90) ∨ (97 ≤ byte ∧ byte ≤ 122) ∨
    byte = 95 ∨ byte = 46 ∨ byte = 45 ∨ byte = 126

def quoteByte (byte : UInt8) : List Char :=
  if unreserved byte then [Char.ofNat byte.toNat]
  else ['%', hexDigits.getD (byte.toNat / 16) '0', hexDigits.getD (byte.toNat % 16) '0']

def quotePlusByte (byte : UInt8) : List Char := if byte = 32 then ['+'] else quoteByte byte

def utf8 (text : String) : List UInt8 := text.toByteArray.data.toList

/-- `quote(text, safe='')`. -/
def quote (text : String) : List Char := (utf8 text).flatMap quoteByte

/-- `quote_plus(text)`. -/
def quote_plus (text : String) : List Char := (utf8 text).flatMap quotePlusByte

def unquote : List Char → List UInt8
  | '%' :: high :: low :: rest =>
    UInt8.ofNat (16 * hexDigits.idxOf high + hexDigits.idxOf low) :: unquote rest
  | '+' :: rest => 32 :: unquote rest
  | char :: rest => UInt8.ofNat char.toNat :: unquote rest
  | [] => []

theorem unreserved_read {byte : UInt8} (kept : unreserved byte = true) :
    Char.ofNat byte.toNat ∉ structural ∧ Char.ofNat byte.toNat ≠ '%' ∧
      UInt8.ofNat (Char.ofNat byte.toNat).toNat = byte := by
  have all : ∀ n < 256, unreserved (UInt8.ofNat n) = true →
      Char.ofNat (UInt8.ofNat n).toNat ∉ structural ∧ Char.ofNat (UInt8.ofNat n).toNat ≠ '%' ∧
        UInt8.ofNat (Char.ofNat (UInt8.ofNat n).toNat).toNat = UInt8.ofNat n := by
    decide +kernel
  have here := all byte.toNat byte.toNat_lt
  rw [UInt8.ofNat_toNat] at here
  exact here kept

theorem hexDigit_read : ∀ digit < 16, hexDigits.getD digit '0' ∉ structural ∧
    hexDigits.idxOf (hexDigits.getD digit '0') = digit := by
  decide

theorem high_lt (byte : UInt8) : byte.toNat / 16 < 16 := Nat.div_lt_of_lt_mul byte.toNat_lt

theorem low_lt (byte : UInt8) : byte.toNat % 16 < 16 := Nat.mod_lt _ (by decide)

theorem quoteByte_plain {byte : UInt8} {char : Char} (listed : char ∈ quoteByte byte) :
    char ∉ structural := by
  rw [quoteByte] at listed
  split at listed
  · rename_i kept
    rw [List.mem_singleton.mp listed]
    exact (unreserved_read kept).1
  · simp only [List.mem_cons, List.not_mem_nil, or_false] at listed
    rcases listed with rfl | rfl | rfl
    · decide
    · exact (hexDigit_read _ (high_lt byte)).1
    · exact (hexDigit_read _ (low_lt byte)).1

theorem quote_plain {text : String} {char : Char} (member : char ∈ quote text) :
    char ∉ structural := by
  obtain ⟨byte, -, listed⟩ := List.mem_flatMap.mp member
  exact quoteByte_plain listed

theorem quote_plus_plain {text : String} {char : Char} (member : char ∈ quote_plus text) :
    char = '+' ∨ char ∉ structural := by
  obtain ⟨byte, -, listed⟩ := List.mem_flatMap.mp member
  rw [quotePlusByte] at listed
  split at listed
  · exact .inl (List.mem_singleton.mp listed)
  · exact .inr (quoteByte_plain listed)

theorem unquote_plain {char : Char} (percent : char ≠ '%') (plus : char ≠ '+') (rest : List Char) :
    unquote (char :: rest) = UInt8.ofNat char.toNat :: unquote rest := by
  rw [unquote]
  · exact fun _ _ _ same _ => percent same
  · exact plus

theorem hex_read (byte : UInt8) : UInt8.ofNat
    (16 * hexDigits.idxOf (hexDigits.getD (byte.toNat / 16) '0') +
      hexDigits.idxOf (hexDigits.getD (byte.toNat % 16) '0')) = byte := by
  rw [(hexDigit_read _ (high_lt byte)).2, (hexDigit_read _ (low_lt byte)).2, Nat.div_add_mod,
    UInt8.ofNat_toNat]

theorem unquote_byte (byte : UInt8) (rest : List Char) :
    unquote (quotePlusByte byte ++ rest) = byte :: unquote rest := by
  rw [quotePlusByte]
  split
  · rename_i blank
    rw [blank]
    rfl
  · rw [quoteByte]
    split
    · rename_i kept
      obtain ⟨plain, percent, read⟩ := unreserved_read kept
      have plus := ne_of_mem_of_not_mem (by decide : '+' ∈ structural) plain
      rw [List.singleton_append, unquote_plain percent plus.symm, read]
    · rw [List.cons_append, List.cons_append, List.cons_append, List.nil_append, unquote, hex_read]

theorem unquote_quote_plus (text : String) : unquote (quote_plus text) = utf8 text := by
  rw [quote_plus]
  induction utf8 text with
  | nil => rfl
  | cons byte rest ih => rw [List.flatMap_cons, unquote_byte, ih]

/-- `urlencode(pairs)`. -/
def urlencode (pairs : List (String × String)) : List Char :=
  ['&'].intercalate (pairs.map (fun pair => quote_plus pair.1 ++ '=' :: quote_plus pair.2))

def parseQuery (query : List Char) : List (List UInt8 × List UInt8) :=
  if query = [] then []
  else (query.splitOn '&').map (fun part =>
    (unquote (part.takeWhile (fun char => decide (char ≠ '='))),
      unquote ((part.dropWhile (fun char => decide (char ≠ '='))).drop 1)))

theorem split_at {stop : Char} {before after : List Char} (plain : stop ∉ before) :
    (before ++ stop :: after).takeWhile (fun char => decide (char ≠ stop)) = before ∧
      (before ++ stop :: after).dropWhile (fun char => decide (char ≠ stop)) = stop :: after := by
  have passed : ∀ char ∈ before, decide (char ≠ stop) = true := by
    intro char member
    apply decide_eq_true
    rintro rfl
    exact plain member
  rw [List.takeWhile_append_of_pos passed, List.dropWhile_append_of_pos passed]
  simp

def encodedPair (pair : String × String) : List Char := quote_plus pair.1 ++ '=' :: quote_plus pair.2

theorem mem_encodedPair {pair : String × String} {char : Char} (member : char ∈ encodedPair pair) :
    char = '+' ∨ char = '=' ∨ char ∉ structural := by
  rcases List.mem_append.mp member with name | value
  · exact (quote_plus_plain name).imp_right .inr
  · rcases List.mem_cons.mp value with equals | value
    · exact .inr (.inl equals)
    · exact (quote_plus_plain value).imp_right .inr

theorem mem_urlencode {pairs : List (String × String)} {char : Char}
    (member : char ∈ urlencode pairs) : char ≠ '#' ∧ char ≠ '?' := by
  have parts : char = '&' ∨ ∃ pair ∈ pairs, char ∈ encodedPair pair := by
    unfold urlencode at member
    induction pairs with
    | nil => simp at member
    | cons pair rest ih =>
      by_cases last : rest = []
      · subst last
        exact .inr ⟨pair, List.mem_cons_self, by simpa [encodedPair] using member⟩
      · rw [List.map_cons, List.intercalate_cons_of_ne_nil (by simpa using last)] at member
        rcases List.mem_append.mp member with first | later
        · rcases List.mem_append.mp first with here | parting
          · exact .inr ⟨pair, List.mem_cons_self, here⟩
          · exact .inl (List.mem_singleton.mp parting)
        · rcases ih later with parting | ⟨other, listed, inside⟩
          · exact .inl parting
          · exact .inr ⟨other, List.mem_cons_of_mem _ listed, inside⟩
  rcases parts with rfl | ⟨pair, -, inside⟩
  · decide
  · rcases mem_encodedPair inside with rfl | rfl | plain
    · decide
    · decide
    · constructor
      · rintro rfl
        exact plain (by decide)
      · rintro rfl
        exact plain (by decide)

theorem parse_pair (pair : String × String) :
    (unquote ((encodedPair pair).takeWhile (fun char => decide (char ≠ '='))),
      unquote (((encodedPair pair).dropWhile (fun char => decide (char ≠ '='))).drop 1)) =
        (utf8 pair.1, utf8 pair.2) := by
  have plain : '=' ∉ quote_plus pair.1 := by
    intro member
    rcases quote_plus_plain member with plus | plain
    · exact absurd plus (by decide)
    · exact plain (by decide)
  obtain ⟨name, value⟩ := @split_at '=' _ (quote_plus pair.2) plain
  rw [encodedPair, name, value, List.drop_one, List.tail_cons, unquote_quote_plus, unquote_quote_plus]

theorem parseQuery_urlencode (pairs : List (String × String)) :
    parseQuery (urlencode pairs) = pairs.map (fun pair => (utf8 pair.1, utf8 pair.2)) := by
  by_cases none : pairs = []
  · subst none
    rfl
  · have parts : (urlencode pairs).splitOn '&' = pairs.map encodedPair := by
      refine List.splitOn_intercalate '&' ?_ (by simpa using none)
      intro part listed
      obtain ⟨pair, -, rfl⟩ := List.mem_map.mp listed
      intro member
      rcases mem_encodedPair member with plus | equals | plain
      · exact absurd plus (by decide)
      · exact absurd equals (by decide)
      · exact plain (by decide)
    have some_text : urlencode pairs ≠ [] := by
      intro empty
      rw [empty] at parts
      obtain ⟨pair, rest, rfl⟩ := List.exists_cons_of_ne_nil none
      simp [encodedPair] at parts
    rw [parseQuery, if_neg some_text, parts, List.map_map]
    exact List.map_congr_left (fun pair _ => parse_pair pair)

def beforeFragment (text : List Char) : List Char := text.takeWhile (fun char => decide (char ≠ '#'))

def beforeQuery (text : List Char) : List Char :=
  (beforeFragment text).takeWhile (fun char => decide (char ≠ '?'))

def query (text : List Char) : List Char :=
  ((beforeFragment text).dropWhile (fun char => decide (char ≠ '?'))).drop 1

/-- What stands behind `scheme://authority`, up to the query. -/
def path (text : List Char) : List Char :=
  (((beforeQuery text).dropWhile (fun char => decide (char ≠ ':'))).drop 3).dropWhile
    (fun char => decide (char ≠ '/'))

def segments (path : List Char) : List (List Char) := (path.splitOn '/').tail

def joined (parts : List (List Char)) : List Char := parts.flatMap (fun part => '/' :: part)

/-- `.` and `..`. -/
def isDots (segment : List Char) : Bool := segment = ['.'] ∨ segment = ['.', '.']

def passSegment (kept : List (List Char)) (segment : List Char) : List (List Char) :=
  if segment = ['.', '.'] then kept.dropLast
  else if segment = ['.'] then kept
  else kept ++ [segment]

def removeDots (parts : List (List Char)) : List (List Char) :=
  let kept := parts.foldl passSegment []
  if parts.getLast?.any isDots then kept ++ [[]] else kept

theorem mem_takeWhile {stop char : Char} {text : List Char}
    (member : char ∈ text.takeWhile (fun char => decide (char ≠ stop))) : char ≠ stop ∧ char ∈ text :=
  ⟨of_decide_eq_true (List.all_eq_true.mp List.all_takeWhile char member),
    (List.takeWhile_prefix _).mem member⟩

theorem mem_of_mem_splitOn {sep char : Char} {text part : List Char} (listed : part ∈ text.splitOn sep)
    (inside : char ∈ part) : char ∈ text := by
  induction text using @Lines.last_induction _ _ sep with
  | single text absent =>
    rw [List.splitOn_eq_singleton absent, List.mem_singleton] at listed
    rwa [listed] at inside
  | line before after absent ih =>
    rw [List.splitOn_append_cons_self, List.splitOn_eq_singleton absent, List.mem_append,
      List.mem_singleton] at listed
    rcases listed with earlier | rfl
    · exact List.mem_append_left _ (ih earlier)
    · exact List.mem_append_right _ (List.mem_cons_of_mem _ inside)

theorem segment_plain {text segment : List Char} (member : segment ∈ segments (path text))
    {char : Char} (inside : char ∈ segment) : char ≠ '/' ∧ char ≠ '?' ∧ char ≠ '#' := by
  have of_split := List.mem_of_mem_tail member
  have slash : '/' ∉ segment := Lines.not_mem_of_mem_splitOn of_split
  have from_path := mem_of_mem_splitOn of_split inside
  have from_query : char ∈ beforeQuery text := (List.dropWhile_suffix _).mem
    (List.mem_of_mem_drop ((List.dropWhile_suffix _).mem from_path))
  obtain ⟨mark, from_fragment⟩ := mem_takeWhile from_query
  refine ⟨?_, mark, (mem_takeWhile from_fragment).1⟩
  rintro rfl
  exact slash inside

theorem mem_foldl_passSegment {parts kept : List (List Char)} {segment : List Char}
    (member : segment ∈ parts.foldl passSegment kept) :
    segment ∈ kept ∨ (segment ∈ parts ∧ isDots segment = false) := by
  induction parts generalizing kept with
  | nil => exact .inl member
  | cons part rest ih =>
    rcases ih member with earlier | ⟨later, plain⟩
    · unfold passSegment at earlier
      split at earlier
      · exact .inl (List.mem_of_mem_dropLast earlier)
      · rename_i up
        split at earlier
        · exact .inl earlier
        · rename_i same
          rcases List.mem_append.mp earlier with before | last
          · exact .inl before
          · rw [List.mem_singleton.mp last]
            refine .inr ⟨List.mem_cons_self, ?_⟩
            simp [isDots, up, same]
    · exact .inr ⟨List.mem_cons_of_mem _ later, plain⟩

theorem mem_removeDots {parts : List (List Char)} {segment : List Char}
    (member : segment ∈ removeDots parts) :
    isDots segment = false ∧ (segment = [] ∨ segment ∈ parts) := by
  have kept : ∀ segment ∈ parts.foldl passSegment [], isDots segment = false ∧ segment ∈ parts := by
    intro segment there
    rcases mem_foldl_passSegment there with none | ⟨listed, plain⟩
    · cases none
    · exact ⟨plain, listed⟩
  rw [removeDots] at member
  split at member
  · rcases List.mem_append.mp member with there | last
    · exact ⟨(kept segment there).1, .inr (kept segment there).2⟩
    · rw [List.mem_singleton.mp last]
      exact ⟨rfl, .inl rfl⟩
  · exact ⟨(kept segment member).1, .inr (kept segment member).2⟩

theorem foldl_passSegment_plain {parts : List (List Char)}
    (plain : ∀ segment ∈ parts, isDots segment = false) (kept : List (List Char)) :
    parts.foldl passSegment kept = kept ++ parts := by
  induction parts generalizing kept with
  | nil => simp
  | cons part rest ih =>
    have here := plain part List.mem_cons_self
    simp only [isDots, Bool.decide_or, Bool.or_eq_false_iff, decide_eq_false_iff_not] at here
    rw [List.foldl_cons, passSegment, if_neg here.2, if_neg here.1,
      ih (fun other listed => plain other (List.mem_cons_of_mem _ listed)), List.append_assoc]
    rfl

theorem removeDots_append_iff {base parts : List (List Char)} (some_part : parts ≠ []) :
    removeDots (base ++ parts) = base.foldl passSegment [] ++ parts ↔
      ∀ segment ∈ parts, isDots segment = false := by
  constructor
  · intro same segment member
    refine (@mem_removeDots (base ++ parts) _ ?_).1
    rw [same]
    exact List.mem_append_right _ member
  · intro plain
    have last : ((base ++ parts).getLast?.any isDots) = false := by
      rw [List.getLast?_append_of_ne_nil _ some_part, List.getLast?_eq_some_getLast some_part]
      exact plain _ (List.getLast_mem some_part)
    rw [removeDots, last, List.foldl_append, foldl_passSegment_plain plain]
    rfl

theorem split_joined {parts : List (List Char)} (plain : ∀ part ∈ parts, '/' ∉ part)
    {first : List Char} (first_plain : '/' ∉ first) :
    (first ++ joined parts).splitOn '/' = first :: parts := by
  induction parts generalizing first with
  | nil =>
    rw [joined, List.flatMap_nil, List.append_nil]
    exact List.splitOn_eq_singleton first_plain
  | cons part rest ih =>
    rw [joined, List.flatMap_cons, List.cons_append, ← joined,
      List.splitOn_append_cons_self_of_not_mem first_plain,
      ih (fun other listed => plain other (List.mem_cons_of_mem _ listed))
        (plain part List.mem_cons_self)]

theorem segments_joined {parts : List (List Char)} (plain : ∀ part ∈ parts, '/' ∉ part) :
    segments (joined parts) = parts := by
  have split := @split_joined parts plain [] List.not_mem_nil
  rw [List.nil_append] at split
  rw [segments, split, List.tail_cons]

theorem parts_of_url {scheme authority route tail asked : List Char}
    (scheme_plain : ∀ char ∈ scheme, char ≠ ':' ∧ char ≠ '?' ∧ char ≠ '#')
    (authority_plain : ∀ char ∈ authority, char ≠ '/' ∧ char ≠ '?' ∧ char ≠ '#')
    (route_plain : ∀ char ∈ route, char ≠ '?' ∧ char ≠ '#')
    (rooted : route.head?.all (fun char => decide (char = '/')) = true)
    (tail_parts : tail = [] ∧ asked = [] ∨ tail = '?' :: asked)
    (asked_plain : ∀ char ∈ asked, char ≠ '#') :
    path (scheme ++ ':' :: '/' :: '/' :: (authority ++ route) ++ tail) = route ∧
      query (scheme ++ ':' :: '/' :: '/' :: (authority ++ route) ++ tail) = asked := by
  have front_plain : ∀ char ∈ scheme ++ ':' :: '/' :: '/' :: (authority ++ route),
      char ≠ '?' ∧ char ≠ '#' := by
    intro char member
    simp only [List.mem_append, List.mem_cons] at member
    rcases member with listed | rfl | rfl | rfl | listed | listed
    · exact (scheme_plain char listed).2
    · decide
    · decide
    · decide
    · exact (authority_plain char listed).2
    · exact route_plain char listed
  have unmarked : ∀ char ∈ scheme ++ ':' :: '/' :: '/' :: (authority ++ route),
      decide (char ≠ '?') = true := fun char member => decide_eq_true (front_plain char member).1
  have whole : beforeFragment (scheme ++ ':' :: '/' :: '/' :: (authority ++ route) ++ tail) =
      scheme ++ ':' :: '/' :: '/' :: (authority ++ route) ++ tail := by
    rw [beforeFragment, List.takeWhile_eq_self_iff]
    intro char member
    apply decide_eq_true
    rcases List.mem_append.mp member with front | behind
    · exact (front_plain char front).2
    · rcases tail_parts with ⟨rfl, -⟩ | rfl
      · cases behind
      · rcases List.mem_cons.mp behind with rfl | listed
        · decide
        · exact asked_plain char listed
  have front : beforeQuery (scheme ++ ':' :: '/' :: '/' :: (authority ++ route) ++ tail) =
      scheme ++ ':' :: '/' :: '/' :: (authority ++ route) := by
    rw [beforeQuery, whole, List.takeWhile_append_of_pos unmarked]
    rcases tail_parts with ⟨rfl, -⟩ | rfl
    · simp
    · simp
  constructor
  · have colon : ':' ∉ scheme := fun member => (scheme_plain ':' member).1 rfl
    have passed : ∀ char ∈ authority, decide (char ≠ '/') = true :=
      fun char member => decide_eq_true (authority_plain char member).1
    rw [path, front, (split_at colon).2]
    simp only [List.drop_succ_cons, List.drop_zero]
    rw [List.dropWhile_append_of_pos passed]
    cases route with
    | nil => rfl
    | cons first rest =>
      have slash : first = '/' := by simpa using rooted
      rw [slash]
      rfl
  · rw [query, whole, List.dropWhile_append_of_pos unmarked]
    rcases tail_parts with ⟨rfl, rfl⟩ | rfl
    · rfl
    · rfl

end OpenWebui.Url
