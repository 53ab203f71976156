import OpenWebui.Base.JsonScan
import OpenWebui.Base.JsonSearch

/-! JSON values over a type of floats, and the value that `json.loads` reads from a text. The limits on
digits and on depth are left out. -/

namespace OpenWebui.JsonText

open JsonScan (skip)

def hexDigit? (digit : Char) : Option Nat :=
  if digit.isDigit then some (digit.toNat - 48)
  else if 'a' ≤ digit ∧ digit ≤ 'f' then some (digit.toNat - 87)
  else if 'A' ≤ digit ∧ digit ≤ 'F' then some (digit.toNat - 55)
  else none

/-- The four digits after `\u`. -/
def code? : List Char → Option (Nat × List Char)
  | first :: second :: third :: fourth :: rest => do
    let first ← hexDigit? first
    let second ← hexDigit? second
    let third ← hexDigit? third
    let fourth ← hexDigit? fourth
    some (((first * 16 + second) * 16 + third) * 16 + fourth, rest)
  | _ => none

/-- The character after `\u`; half of a pair alone, which no text here holds, is refused. -/
def unicode? (text : List Char) : Option (Char × List Char) := do
  let (code, rest) ← code? text
  if 55296 ≤ code ∧ code < 56320 then
    if rest.take 2 = ['\\', 'u'] then do
      let (low, after) ← code? (rest.drop 2)
      if 56320 ≤ low ∧ low < 57344 then
        some (Char.ofNat (65536 + (code - 55296) * 1024 + (low - 56320)), after)
      else none
    else none
  else if 56320 ≤ code ∧ code < 57344 then none
  else some (Char.ofNat code, rest)

def backslashes : List (Char × Char) :=
  [('"', '"'), ('\\', '\\'), ('/', '/'), ('b', '\x08'), ('f', '\x0c'), ('n', '\n'), ('r', '\r'),
    ('t', '\t')]

def backslash? : List Char → Option (Char × List Char)
  | [] => none
  | letter :: rest =>
    if letter = 'u' then unicode? rest
    else (backslashes.lookup letter).map (fun meant => (meant, rest))

def character? : List Char → Option (Char × List Char)
  | [] => none
  | char :: rest =>
    if char = '\\' then backslash? rest
    else if char.toNat < 32 then none
    else some (char, rest)

/-- `scanstring`, after the opening quote. -/
def string? : Nat → List Char → Option (List Char × List Char)
  | 0, _ => none
  | _ + 1, [] => none
  | fuel + 1, char :: rest =>
    if char = '"' then some ([], rest)
    else do
      let (first, later) ← character? (char :: rest)
      let (chars, after) ← string? fuel later
      some (first :: chars, after)

def digits (text : List Char) : List Char × List Char :=
  (text.takeWhile Char.isDigit, text.dropWhile Char.isDigit)

/-- `-?(0|[1-9][0-9]*)`. -/
def integer? (text : List Char) : Option (List Char × List Char) :=
  let (sign, unsigned) := if text.head? = some '-' then (['-'], text.drop 1) else ([], text)
  if unsigned.head? = some '0' then some (sign ++ ['0'], unsigned.drop 1)
  else if (digits unsigned).1 = [] then none
  else some (sign ++ (digits unsigned).1, (digits unsigned).2)

/-- `(\.[0-9]+)?`. -/
def fraction (text : List Char) : List Char × List Char :=
  if text.head? = some '.' ∧ (digits (text.drop 1)).1 ≠ [] then
    ('.' :: (digits (text.drop 1)).1, (digits (text.drop 1)).2)
  else ([], text)

def powerSign (text : List Char) : List Char × List Char :=
  if text.head? = some '-' then (['-'], text.drop 1)
  else if text.head? = some '+' then (['+'], text.drop 1)
  else ([], text)

/-- `([eE][-+]?[0-9]+)?`. -/
def exponent (text : List Char) : List Char × List Char :=
  let power := powerSign (text.drop 1)
  if (text.head? = some 'e' ∨ text.head? = some 'E') ∧ (digits power.2).1 ≠ [] then
    (text.take 1 ++ (power.1 ++ (digits power.2).1), (digits power.2).2)
  else ([], text)

/-- Digits, at least one. -/
def Digits (text : List Char) : Prop := text ≠ [] ∧ ∀ char ∈ text, char.isDigit = true

structure Whole (text : List Char) : Prop where
  parts : ∃ sign unsigned, text = sign ++ unsigned ∧ (sign = [] ∨ sign = ['-']) ∧ Digits unsigned ∧
    (unsigned = ['0'] ∨ unsigned.head? ≠ some '0')

def Fraction (text : List Char) : Prop := text = [] ∨ ∃ after, text = '.' :: after ∧ Digits after

def Exponent (text : List Char) : Prop :=
  text = [] ∨ ∃ letter sign power, text = letter :: (sign ++ power) ∧ (letter = 'e' ∨ letter = 'E') ∧
    (sign = [] ∨ sign = ['-'] ∨ sign = ['+']) ∧ Digits power

inductive Value (F : Type) where
  | null
  | bool (value : Bool)
  | int (value : Int)
  | float (value : F)
  | str (text : String)
  | arr (items : List (Value F))
  | obj (fields : List (String × Value F))

def constants : List (List Char) := ["NaN".toList, "Infinity".toList, "-Infinity".toList]

/-- `float.__repr__`, as `json.dumps` uses it, and `float` of a text: what is written is a decimal
with a fraction or an exponent, or one of the constants, and is read back. -/
structure FloatText (F : Type) where
  repr : F → List Char
  parse : List Char → F
  written : ∀ value, repr value ∈ constants ∨ ∃ whole after power,
    repr value = whole ++ (after ++ power) ∧ Whole whole ∧ Fraction after ∧ Exponent power ∧
      ¬ (after = [] ∧ power = [])
  parse_repr : ∀ value, parse (repr value) = value

section Values

variable {F : Type} (floats : FloatText F)

/-- `int` of a text. -/
def intOf (text : List Char) : Int :=
  if text.head? = some '-' then - (Nat.ofDigitChars 10 (text.drop 1) 0 : Int)
  else Nat.ofDigitChars 10 text 0

def literals : List (List Char × Value F) :=
  [("null".toList, .null), ("true".toList, .bool true), ("false".toList, .bool false)] ++
    constants.map (fun text => (text, .float (floats.parse text)))

def number? (text : List Char) : Option (Value F × List Char) := do
  let (whole, rest) ← integer? text
  let after := fraction rest
  let power := exponent after.2
  if after.1 = [] ∧ power.1 = [] then some (.int (intOf whole), power.2)
  else some (.float (floats.parse (whole ++ (after.1 ++ power.1))), power.2)

def entries? {α : Type} (close : Char) (entry : List Char → Option (α × List Char)) :
    Nat → List Char → Option (List α × List Char)
  | 0, _ => none
  | fuel + 1, text => do
    let (first, rest) ← entry text
    if (skip rest).head? = some close then some ([first], (skip rest).drop 1)
    else if (skip rest).head? = some ',' then do
      let (others, later) ← entries? close entry fuel (skip ((skip rest).drop 1))
      some (first :: others, later)
    else none

def container? {α : Type} (close : Char) (entry : List Char → Option (α × List Char))
    (text : List Char) : Option (List α × List Char) :=
  if (skip text).head? = some close then some ([], (skip text).drop 1)
  else entries? close entry text.length (skip text)

def member? (value : List Char → Option (Value F × List Char)) (text : List Char) :
    Option ((String × Value F) × List Char) :=
  if text.head? = some '"' then do
    let (name, rest) ← string? text.length (text.drop 1)
    if (skip rest).head? = some ':' then do
      let (found, later) ← value (skip ((skip rest).drop 1))
      some ((String.ofList name, found), later)
    else none
  else none

def pairsOf (pairs : List (String × Value F)) : List (String × Value F) :=
  pairs.foldl (fun fields pair => Assoc.set fields pair.1 pair.2) []

/-- `scan_once`, with the depth that is left. -/
def scanOnce : Nat → List Char → Option (Value F × List Char)
  | 0, _ => none
  | depth + 1, text =>
    if text.head? = some '"' then
      (string? text.length (text.drop 1)).map (fun read => (.str (String.ofList read.1), read.2))
    else if text.head? = some '\x7b' then
      (container? '\x7d' (member? (scanOnce depth)) (text.drop 1)).map (fun read =>
        (.obj (pairsOf read.1), read.2))
    else if text.head? = some '[' then
      (container? ']' (scanOnce depth) (text.drop 1)).map (fun read => (.arr read.1, read.2))
    else
      match (literals floats).find? (fun literal => literal.1.isPrefixOf text) with
      | some literal => some (literal.2, text.drop literal.1.length)
      | none => number? floats text

/-- `json.loads`; none where it raises. A value is no deeper than its text is long. -/
def loads (text : List Char) : Option (Value F) := do
  let (value, rest) ← scanOnce floats (text.length + 1) (skip text)
  if skip rest = [] then some value else none

end Values

def zeroFloats : FloatText Unit where
  repr _ := "0.0".toList
  parse _ := ()
  written _ := by
    refine Or.inr ⟨['0'], ".0".toList, [], rfl, ⟨[], ['0'], rfl, Or.inl rfl, ?_, Or.inl rfl⟩,
      Or.inr ⟨['0'], rfl, ?_⟩, Or.inl rfl, by simp⟩
    · exact ⟨by simp, by simp⟩
    · exact ⟨by simp, by simp⟩
  parse_repr _ := rfl

end OpenWebui.JsonText
