import OpenWebui.Base.Utf8

/-! `_unescape_ldap_dn_value`: the escapes of a value in a distinguished name are resolved, whichever
of the spellings of a character is used for each. -/

namespace OpenWebui.LdapNames

def hexdigits : List Char :=
  ['0', '1', '2', '3', '4', '5', '6', '7', '8', '9', 'a', 'b', 'c', 'd', 'e', 'f', 'A', 'B', 'C', 'D',
    'E', 'F']

/-- `int(digit, 16)`, of a digit in either case. -/
def hexValue (digit : Char) : Nat :=
  let place := hexdigits.idxOf digit
  if place < 16 then place else place - 6

def hexPair : List Char → Option (Nat × List Char)
  | char :: first :: second :: rest =>
    if char = '\\' ∧ first ∈ hexdigits ∧ second ∈ hexdigits then
      some (hexValue first * 16 + hexValue second, rest)
    else none
  | _ => none

theorem hexPair_length {text rest : List Char} {byte : Nat} (found : hexPair text = some (byte, rest)) :
    rest.length < text.length := by
  unfold hexPair at found
  split at found
  · split at found
    · obtain ⟨_, rfl⟩ := Prod.mk.inj (Option.some.inj found)
      simp only [List.length_cons]
      omega
    · cases found
  · cases found

/-- The inner loop: `byte_values`, and the text after the last pair. -/
def byteValues (text : List Char) : List Nat × List Char :=
  match found : hexPair text with
  | none => ([], text)
  | some (byte, rest) =>
    have _shorter := hexPair_length found
    (byte :: (byteValues rest).1, (byteValues rest).2)
termination_by text.length

theorem byteValues_none {text : List Char} (none_found : hexPair text = none) :
    byteValues text = ([], text) := by
  rw [byteValues]
  split
  · rfl
  · rename_i found
    rw [none_found] at found
    cases found

theorem byteValues_some {text rest : List Char} {byte : Nat} (found : hexPair text = some (byte, rest)) :
    byteValues text = (byte :: (byteValues rest).1, (byteValues rest).2) := by
  rw [byteValues]
  split
  · rename_i none_found
    rw [found] at none_found
    cases none_found
  · rename_i again
    rw [found] at again
    obtain ⟨rfl, rfl⟩ := Prod.mk.inj (Option.some.inj again)
    rfl

theorem byteValues_length (text : List Char) : (byteValues text).2.length ≤ text.length := by
  fun_induction byteValues text with
  | case1 => exact Nat.le_refl _
  | case2 text byte rest _ shorter ih => exact Nat.le_trans ih (Nat.le_of_lt shorter)

def _unescape_ldap_dn_value : List Char → List Char
  | [] => []
  | [char] => [char]
  | char :: next :: rest =>
    if char = '\\' then
      match found : hexPair (char :: next :: rest) with
      | some (byte, later) =>
        have _shorter := hexPair_length found
        have _more := byteValues_length later
        Utf8.decode (byteValues (char :: next :: rest)).1 ++
          _unescape_ldap_dn_value (byteValues (char :: next :: rest)).2
      | none => next :: _unescape_ldap_dn_value rest
    else char :: _unescape_ldap_dn_value (next :: rest)
termination_by text => text.length
decreasing_by
  · rw [byteValues_some found]
    dsimp only
    omega
  · simp only [List.length_cons]
    omega
  · simp only [List.length_cons]
    omega

theorem unescape_plain {char : Char} (plain : char ≠ '\\') (rest : List Char) :
    _unescape_ldap_dn_value (char :: rest) = char :: _unescape_ldap_dn_value rest := by
  cases rest with
  | nil => rw [_unescape_ldap_dn_value, _unescape_ldap_dn_value]
  | cons next rest => rw [_unescape_ldap_dn_value, if_neg plain]

theorem unescape_escaped {next : Char} {rest : List Char} (no_pair : hexPair ('\\' :: next :: rest) = none) :
    _unescape_ldap_dn_value ('\\' :: next :: rest) = next :: _unescape_ldap_dn_value rest := by
  rw [_unescape_ldap_dn_value, if_pos rfl]
  split
  · rename_i found
    rw [no_pair] at found
    cases found
  · rfl

theorem unescape_pairs {text rest : List Char} {byte : Nat} (found : hexPair text = some (byte, rest)) :
    _unescape_ldap_dn_value text =
      Utf8.decode (byteValues text).1 ++ _unescape_ldap_dn_value (byteValues text).2 := by
  obtain ⟨first, second, rfl⟩ : ∃ first second, text = '\\' :: first :: second :: rest := by
    unfold hexPair at found
    split at found
    · split at found
      · rename_i digits
        obtain ⟨_, rfl⟩ := Prod.mk.inj (Option.some.inj found)
        exact ⟨_, _, by rw [digits.1]⟩
      · cases found
    · cases found
  rw [_unescape_ldap_dn_value, if_pos rfl]
  split
  · rfl
  · rename_i none_found
    rw [found] at none_found
    cases none_found

def specials : List Char := ['"', '+', ',', ';', '<', '>', ' ', '#', '=', '\\']

/-- Bytes, each as a backslash and two digits in any case. -/
inductive Pairs : List Nat → List Char → Prop
  | nil : Pairs [] []
  | cons {first second : Char} {bytes : List Nat} {text : List Char} (high : first ∈ hexdigits)
      (low : second ∈ hexdigits) (rest : Pairs bytes text) :
      Pairs ((hexValue first * 16 + hexValue second) :: bytes) ('\\' :: first :: second :: text)

/-- A value, and a text that spells it. -/
inductive Spells : List Char → List Char → Prop
  | nil : Spells [] []
  | itself {char : Char} {value text : List Char} (plain : char ≠ '\\') (rest : Spells value text) :
      Spells (char :: value) (char :: text)
  | escaped {char : Char} {value text : List Char} (special : char ∈ specials) (rest : Spells value text) :
      Spells (char :: value) ('\\' :: char :: text)
  | bytes {char : Char} {value pairs text : List Char} (spelled : Pairs (Utf8.bytes char) pairs)
      (rest : Spells value text) : Spells (char :: value) (pairs ++ text)

theorem special_no_digit {char : Char} (special : char ∈ specials) : char ∉ hexdigits := by
  have apart : ∀ char ∈ specials, char ∉ hexdigits := by simp [specials, hexdigits]
  exact apart char special

theorem hexPair_special {char : Char} (special : char ∈ specials) (text : List Char) :
    hexPair ('\\' :: char :: text) = none := by
  cases text with
  | nil => rfl
  | cons second rest => exact if_neg fun digits => special_no_digit special digits.2.1

theorem hexPair_plain {char : Char} (plain : char ≠ '\\') (text : List Char) :
    hexPair (char :: text) = none := by
  match text with
  | [] => rfl
  | [_] => rfl
  | first :: second :: rest => exact if_neg fun digits => plain digits.1

theorem byteValues_pairs {bytes : List Nat} {pairs : List Char} (spelled : Pairs bytes pairs)
    (text : List Char) :
    byteValues (pairs ++ text) = (bytes ++ (byteValues text).1, (byteValues text).2) := by
  induction spelled with
  | nil => rfl
  | cons high low _ ih =>
    rw [List.cons_append, List.cons_append, List.cons_append,
      byteValues_some (by rw [hexPair, if_pos ⟨rfl, high, low⟩]), ih]
    rfl

theorem byteValues_spells {value text : List Char} (spells : Spells value text) :
    ∃ before after, value = before ++ after ∧ (byteValues text).1 = before.flatMap Utf8.bytes ∧
      Spells after (byteValues text).2 := by
  induction spells with
  | nil => exact ⟨[], [], rfl, by rw [byteValues_none rfl]; rfl, by rw [byteValues_none rfl]; exact .nil⟩
  | @itself char value text plain rest _ =>
    have stops := byteValues_none (hexPair_plain plain text)
    exact ⟨[], _, rfl, by rw [stops]; rfl, by rw [stops]; exact .itself plain rest⟩
  | @escaped char value text special rest _ =>
    have stops := byteValues_none (hexPair_special special text)
    exact ⟨[], _, rfl, by rw [stops]; rfl, by rw [stops]; exact .escaped special rest⟩
  | @bytes char value pairs text spelled rest ih =>
    obtain ⟨before, after, split, read, remains⟩ := ih
    refine ⟨char :: before, after, by rw [split]; rfl, ?_, ?_⟩
    · rw [byteValues_pairs spelled, read]
      rfl
    · rw [byteValues_pairs spelled]
      exact remains

theorem exists_hexPair {char : Char} {pairs : List Char} (spelled : Pairs (Utf8.bytes char) pairs)
    (text : List Char) : ∃ byte rest, hexPair (pairs ++ text) = some (byte, rest) := by
  cases found : Utf8.bytes char with
  | nil => exact absurd (List.map_eq_nil_iff.mp found) String.utf8EncodeChar_ne_nil
  | cons byte bytes =>
    rw [found] at spelled
    cases spelled with
    | cons high low rest => exact ⟨_, _, if_pos ⟨rfl, high, low⟩⟩

/-- Every spelling of a value is resolved to it. -/
theorem unescape_spelled (value text : List Char) (spells : Spells value text) :
    _unescape_ldap_dn_value text = value := by
  induction size : text.length using Nat.strongRecOn generalizing value text with
  | ind size ih =>
    subst size
    have run := byteValues_spells spells
    cases spells with
    | nil => rw [_unescape_ldap_dn_value]
    | itself plain rest =>
      rw [unescape_plain plain, ih _ (by simp) _ _ rest rfl]
    | escaped special rest =>
      rw [unescape_escaped (hexPair_special special _),
        ih _ (Nat.lt_of_succ_lt (Nat.lt_succ_self _)) _ _ rest rfl]
    | @bytes char value pairs text spelled rest =>
      obtain ⟨byte, later, found⟩ := exists_hexPair spelled text
      obtain ⟨before, after, split, read, remains⟩ := run
      have shorter : (byteValues (pairs ++ text)).2.length < (pairs ++ text).length := by
        rw [byteValues_some found]
        exact Nat.lt_of_le_of_lt (byteValues_length later) (hexPair_length found)
      rw [unescape_pairs found, read, Utf8.decode_flatMap, ih _ shorter _ _ remains rfl, split]

/-- A comma, a backslash and a space that are escaped, and a letter as its two bytes. -/
theorem cafe_spelled :
    _unescape_ldap_dn_value "Caf\\c3\\A9\\, \\\\41\\ ".toList = "Café, \\41 ".toList := by
  have pairs : Pairs [hexValue 'c' * 16 + hexValue '3', hexValue 'A' * 16 + hexValue '9']
      ['\\', 'c', '3', '\\', 'A', '9'] :=
    .cons (by decide) (by decide) (.cons (by decide) (by decide) .nil)
  have two_bytes : Utf8.bytes 'é' =
      [hexValue 'c' * 16 + hexValue '3', hexValue 'A' * 16 + hexValue '9'] := by decide
  have letter := two_bytes ▸ pairs
  have ending : Spells "\\41 ".toList "\\\\41\\ ".toList :=
    .escaped (by decide) (.itself (by decide) (.itself (by decide) (.escaped (by decide) .nil)))
  exact unescape_spelled _ _ (.itself (by decide) (.itself (by decide) (.itself (by decide)
    (.bytes letter (.escaped (by decide) (.itself (by decide) ending))))))

end OpenWebui.LdapNames
