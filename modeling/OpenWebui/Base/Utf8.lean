import Mathlib.Data.List.Basic

/-! UTF-8: the bytes of a character, and a decoder that puts a replacement character for the longest
part of a sequence that no character begins with. -/

namespace OpenWebui.Utf8

def bytes (char : Char) : List Nat := (String.utf8EncodeChar char).map UInt8.toNat

/-- What the first byte of a sequence says: how many bytes follow, the bounds of the first of them,
and the bits of the code that the byte has. -/
def lead (byte : Nat) : Option (Nat × Nat × Nat × Nat) :=
  if byte < 0x80 then some (0, 0x80, 0xBF, byte)
  else if byte < 0xC2 then none
  else if byte < 0xE0 then some (1, 0x80, 0xBF, byte - 0xC0)
  else if byte = 0xE0 then some (2, 0xA0, 0xBF, 0)
  else if byte = 0xED then some (2, 0x80, 0x9F, byte - 0xE0)
  else if byte < 0xF0 then some (2, 0x80, 0xBF, byte - 0xE0)
  else if byte = 0xF0 then some (3, 0x90, 0xBF, 0)
  else if byte < 0xF4 then some (3, 0x80, 0xBF, byte - 0xF0)
  else if byte = 0xF4 then some (3, 0x80, 0x8F, byte - 0xF0)
  else none

def follow : Nat → Nat → Nat → Nat → List Nat → Option Nat × List Nat
  | 0, _, _, code, rest => (some code, rest)
  | _ + 1, _, _, _, [] => (none, [])
  | count + 1, low, high, code, byte :: rest =>
    if low ≤ byte ∧ byte ≤ high then follow count 0x80 0xBF (code * 64 + (byte - 0x80)) rest
    else (none, byte :: rest)

theorem follow_length (count low high code : Nat) (rest : List Nat) :
    (follow count low high code rest).2.length ≤ rest.length := by
  fun_induction follow count low high code rest with
  | case1 => exact Nat.le_refl _
  | case2 => exact Nat.le_refl _
  | case3 _ _ _ _ byte rest _ ih => exact Nat.le_trans ih (Nat.le_succ rest.length)
  | case4 => exact Nat.le_refl _

/-- `decode('utf-8', errors='replace')` -/
def decode : List Nat → List Char
  | [] => []
  | byte :: rest =>
    match lead byte with
    | none => '\uFFFD' :: decode rest
    | some (count, low, high, bits) =>
      have _shorter := follow_length count low high bits rest
      match (follow count low high bits rest).1 with
      | some code => Char.ofNat code :: decode (follow count low high bits rest).2
      | none => '\uFFFD' :: decode (follow count low high bits rest).2
termination_by bytes => bytes.length
decreasing_by all_goals (simp only [List.length_cons]; omega)

theorem decode_nil : decode [] = [] := by rw [decode]

theorem decode_of_follow {byte count low high bits code : Nat} {rest later : List Nat}
    (begins : lead byte = some (count, low, high, bits))
    (read : follow count low high bits rest = (some code, later)) :
    decode (byte :: rest) = Char.ofNat code :: decode later := by
  rw [decode, begins]
  dsimp only
  rw [read]

theorem toNat_bound (char : Char) : char.toNat < 1114112 := by
  rcases char.valid with low | ⟨_, high⟩
  · exact Nat.lt_trans low (by decide)
  · exact high

theorem bytes_one {char : Char} (small : char.toNat ≤ 0x7F) : bytes char = [char.toNat] := by
  have code : char.val.toNat = char.toNat := rfl
  rw [bytes, String.utf8EncodeChar, code, if_pos small]
  simp only [List.map_cons, List.map_nil, UInt8.toNat_ofNat', List.cons.injEq, and_true]
  omega

theorem bytes_two {char : Char} (large : 0x7F < char.toNat) (small : char.toNat ≤ 0x7FF) :
    bytes char = [0xC0 + char.toNat / 64, 0x80 + char.toNat % 64] := by
  have code : char.val.toNat = char.toNat := rfl
  rw [bytes, String.utf8EncodeChar, code, if_neg (by omega), if_pos small]
  simp only [List.map_cons, List.map_nil, UInt8.toNat_ofNat', List.cons.injEq, and_true]
  omega

theorem bytes_three {char : Char} (large : 0x7FF < char.toNat) (small : char.toNat ≤ 0xFFFF) :
    bytes char = [0xE0 + char.toNat / 4096, 0x80 + char.toNat / 64 % 64, 0x80 + char.toNat % 64] := by
  have code : char.val.toNat = char.toNat := rfl
  rw [bytes, String.utf8EncodeChar, code, if_neg (by omega), if_neg (by omega), if_pos small]
  simp only [List.map_cons, List.map_nil, UInt8.toNat_ofNat', List.cons.injEq, and_true]
  omega

theorem bytes_four {char : Char} (large : 0xFFFF < char.toNat) :
    bytes char = [0xF0 + char.toNat / 262144, 0x80 + char.toNat / 4096 % 64,
      0x80 + char.toNat / 64 % 64, 0x80 + char.toNat % 64] := by
  have code : char.val.toNat = char.toNat := rfl
  have bound := toNat_bound char
  rw [bytes, String.utf8EncodeChar, code, if_neg (by omega), if_neg (by omega), if_neg (by omega)]
  simp only [List.map_cons, List.map_nil, UInt8.toNat_ofNat', List.cons.injEq, and_true]
  omega

theorem follow_next {count low high bits byte : Nat} (above : low ≤ byte) (below : byte ≤ high)
    (rest : List Nat) :
    follow (count + 1) low high bits (byte :: rest) =
      follow count 0x80 0xBF (bits * 64 + (byte - 0x80)) rest := by
  rw [follow, if_pos ⟨above, below⟩]

theorem lead_three {code : Nat} (large : 0x7FF < code) (small : code ≤ 0xFFFF)
    (no_surrogate : code < 0xD800 ∨ 0xDFFF < code) :
    ∃ low high, lead (0xE0 + code / 4096) = some (2, low, high, code / 4096) ∧
      low ≤ 0x80 + code / 64 % 64 ∧ 0x80 + code / 64 % 64 ≤ high := by
  unfold lead
  rw [if_neg (by omega), if_neg (by omega), if_neg (by omega)]
  by_cases first : code / 4096 = 0
  · refine ⟨0xA0, 0xBF, ?_, by omega, by omega⟩
    rw [if_pos (by omega), first]
  · rw [if_neg (by omega)]
    by_cases before : code / 4096 = 0xD
    · refine ⟨0x80, 0x9F, ?_, by omega, by omega⟩
      rw [if_pos (by omega), Nat.add_sub_cancel_left]
    · refine ⟨0x80, 0xBF, ?_, by omega, by omega⟩
      rw [if_neg (by omega), if_pos (by omega), Nat.add_sub_cancel_left]

theorem lead_four {code : Nat} (large : 0xFFFF < code) (bound : code < 1114112) :
    ∃ low high, lead (0xF0 + code / 262144) = some (3, low, high, code / 262144) ∧
      low ≤ 0x80 + code / 4096 % 64 ∧ 0x80 + code / 4096 % 64 ≤ high := by
  unfold lead
  rw [if_neg (by omega), if_neg (by omega), if_neg (by omega), if_neg (by omega), if_neg (by omega),
    if_neg (by omega)]
  by_cases first : code / 262144 = 0
  · refine ⟨0x90, 0xBF, ?_, by omega, by omega⟩
    rw [if_pos (by omega), first]
  · rw [if_neg (by omega)]
    by_cases last : code / 262144 = 4
    · refine ⟨0x80, 0x8F, ?_, by omega, by omega⟩
      rw [if_neg (by omega), if_pos (by omega), Nat.add_sub_cancel_left]
    · refine ⟨0x80, 0xBF, ?_, by omega, by omega⟩
      rw [if_pos (by omega), Nat.add_sub_cancel_left]

theorem decode_bytes (char : Char) (rest : List Nat) :
    decode (bytes char ++ rest) = char :: decode rest := by
  have bound := toNat_bound char
  have no_surrogate : char.toNat < 0xD800 ∨ 0xDFFF < char.toNat := by
    rcases char.valid with low | ⟨high, _⟩
    · exact Or.inl low
    · exact Or.inr high
  have whole : ∀ {byte count low high bits : Nat} {tail : List Nat},
      lead byte = some (count, low, high, bits) →
      follow count low high bits (tail ++ rest) = (some char.toNat, rest) →
        decode (byte :: (tail ++ rest)) = char :: decode rest := by
    intro byte count low high bits tail begins read
    rw [decode_of_follow begins read, Char.ofNat_toNat]
  rcases Nat.lt_or_ge 0x7F char.toNat with large | small
  · rcases Nat.lt_or_ge 0x7FF char.toNat with large' | small
    · rcases Nat.lt_or_ge 0xFFFF char.toNat with large'' | small
      · obtain ⟨low, high, begins, above, below⟩ := lead_four large'' bound
        rw [bytes_four large'']
        refine whole begins ?_
        rw [List.cons_append, follow_next above below, List.cons_append,
          follow_next (by omega) (by omega), List.cons_append, follow_next (by omega) (by omega), follow]
        simp only [Prod.mk.injEq, Option.some.injEq, List.nil_append, and_true]
        omega
      · obtain ⟨low, high, begins, above, below⟩ := lead_three large' small no_surrogate
        rw [bytes_three large' small]
        refine whole begins ?_
        rw [List.cons_append, follow_next above below, List.cons_append,
          follow_next (by omega) (by omega), follow]
        simp only [Prod.mk.injEq, Option.some.injEq, List.nil_append, and_true]
        omega
    · rw [bytes_two large small]
      have begins : lead (0xC0 + char.toNat / 64) = some (1, 0x80, 0xBF, char.toNat / 64) := by
        rw [lead, if_neg (by omega), if_neg (by omega), if_pos (by omega), Nat.add_sub_cancel_left]
      refine whole begins ?_
      rw [List.cons_append, follow_next (by omega) (by omega), follow]
      simp only [Prod.mk.injEq, Option.some.injEq, List.nil_append, and_true]
      omega
  · rw [bytes_one small]
    have begins : lead char.toNat = some (0, 0x80, 0xBF, char.toNat) := by
      rw [lead, if_pos (by omega)]
    exact whole begins (by rw [follow]; rfl)

theorem decode_flatMap (text : List Char) : decode (text.flatMap bytes) = text := by
  induction text with
  | nil => exact decode_nil
  | cons char rest ih => rw [List.flatMap_cons, decode_bytes, ih]

end OpenWebui.Utf8
