import Mathlib.Data.List.SplitOn
import OpenWebui.Utils.MessageText

/-! The variables of a task template that stand for a prompt or for messages, and may limit how
much of them is put in. -/

namespace OpenWebui.Templates

open Utils (get_content_from_message)

/-- What the patterns and the conversions to numbers take from the interpreter: the value of a
decimal digit, the characters of words, upper case, and how many digits a number may have. -/
structure Characters where
  decimal : Char → Option Nat
  word : Char → Bool
  upper : String → String
  int_max_str_digits : Nat
  brace_not_decimal : decimal '\x7d' = none
  colon_not_decimal : decimal ':' = none
  colon_not_word : word ':' = false
  letter_word : ∀ char : Char, char.isLower = true → word char = true

/-- `items[-n:]`, which is the whole list when `n` is zero. -/
def fromEnd {α : Type} (n : Nat) (items : List α) : List α :=
  if n = 0 then items else items.drop (items.length - n)

inductive Mode where
  | start
  | end_
  | middletruncate
  deriving DecidableEq

def Mode.all : List Mode := [.start, .end_, .middletruncate]

def Mode.name : Mode → List Char
  | .start => "start".toList
  | .end_ => "end".toList
  | .middletruncate => "middletruncate".toList

def Mode.upperName : Mode → List Char
  | .start => "START".toList
  | .end_ => "END".toList
  | .middletruncate => "MIDDLETRUNCATE".toList

def ellipsis : List Char := "...".toList

def opening : List Char := "\x7b\x7b".toList

def closing : List Char := "\x7d\x7d".toList

section Reading

variable (characters : Characters)

/-- The letter of a pattern that ignores case, and a character. Four more characters than the
letter in its two cases fold to a letter of the patterns. -/
def sameLetter (letter char : Char) : Bool :=
  char == letter || char == letter.toUpper || (letter == 's' && char == '\u017f') ||
    (letter == 'i' && (char == '\u0130' || char == '\u0131'))

def after (same : Char → Char → Bool) : List Char → List Char → Option (List Char)
  | [], text => some text
  | _ :: _, [] => none
  | letter :: pattern, char :: text => if same letter char then after same pattern text else none

/-- `(\d+)`, and the text after it. -/
def readDigits (text : List Char) : Option (List Char × List Char) :=
  let digits := text.takeWhile (fun char => (characters.decimal char).isSome)
  if digits = [] then none
  else some (digits, text.dropWhile (fun char => (characters.decimal char).isSome))

def scan {ν : Type} (read : List Char → Option (ν × List Char)) : Nat → List Char → List (Char ⊕ ν)
  | _, [] => []
  | skip + 1, _ :: rest => scan read skip rest
  | 0, char :: rest =>
    match read (char :: rest) with
    | some (variable_, left) => .inr variable_ :: scan read (rest.length - left.length) rest
    | none => .inl char :: scan read 0 rest

/-- `re.sub`: every variable is replaced. -/
def sub {ν : Type} (read : List Char → Option (ν × List Char)) (expand : ν → Except PyError (List Char))
    (template : List Char) : Except PyError (List Char) :=
  ((scan read 0 template).mapM (Sum.elim (fun char => .ok [char]) expand)).map List.flatten

/-- `int(digits)`. -/
def int (digits : List Char) : Except PyError Nat :=
  if digits = [] ∨ digits.any (fun char => (characters.decimal char).isNone) ∨
      characters.int_max_str_digits < digits.length then .error .valueError
  else .ok (digits.foldl (fun value char => 10 * value + (characters.decimal char).getD 0) 0)

end Reading

inductive PromptVariable where
  | whole
  | limited (mode : Mode) (digits : List Char)

section Prompt

variable (characters : Characters)

def readLimited (text : List Char) (mode : Mode) : Option (PromptVariable × List Char) := do
  let rest ← after sameLetter (opening ++ "prompt:".toList ++ mode.name ++ [':']) text
  let (digits, rest) ← readDigits characters rest
  let rest ← after sameLetter closing rest
  some (.limited mode digits, rest)

def readPrompt (text : List Char) : Option (PromptVariable × List Char) :=
  match after sameLetter (opening ++ "prompt".toList ++ closing) text with
  | some rest => some (.whole, rest)
  | none => Mode.all.findSome? (readLimited characters text)

/-- `replacement_function`. -/
def expandPrompt (prompt : List Char) : PromptVariable → Except PyError (List Char)
  | .whole => .ok prompt
  | .limited .start digits => (int characters digits).map (fun length => prompt.take length)
  | .limited .end_ digits => (int characters digits).map (fun length => fromEnd length prompt)
  | .limited .middletruncate digits => (int characters digits).map (fun middle_length =>
      if prompt.length ≤ middle_length then prompt
      else prompt.take ((middle_length + 1) / 2) ++ ellipsis ++ fromEnd (middle_length / 2) prompt)

def replace_prompt_variable (template prompt : List Char) : Except PyError (List Char) :=
  sub (readPrompt characters) (expandPrompt characters prompt) template

end Prompt

/-- A variable for messages: which are selected, and the filter of their contents. -/
structure MessagesVariable where
  selection : Option (Mode × List Char)
  content_filter : Option (List Char)

section Filter

variable (characters : Characters) (formatting : Formatting)

def truncated (mode : Mode) (max_chars : Nat) (content : List Char) : List Char :=
  if max_chars = 0 then []
  else if content.length ≤ max_chars then content
  else
    match mode with
    | .start => content.take max_chars
    | .end_ => fromEnd max_chars content
    | .middletruncate =>
      let half := max_chars / 2
      content.take half ++ ellipsis ++ fromEnd (max_chars - half) content

def truncatedItems (mode : Mode) (max_chars : Nat) (items : List Json) : Json :=
  if items.length ≤ max_chars then .arr items
  else
    match mode with
    | .start => .arr (items.take max_chars)
    | .end_ => .arr (fromEnd max_chars items)
    | .middletruncate =>
      let half := max_chars / 2
      .str (formatting.text (.arr (items.take half)) ++ "..." ++
        formatting.text (.arr (fromEnd (max_chars - half) items)))

def truncate_content (content : Json) (max_chars : Nat) (mode : Mode) : Except PyError Json :=
  if max_chars = 0 then .ok (.str "")
  else if !content.truthy then .ok content
  else
    match content with
    | .str text => .ok (.str (String.ofList (truncated mode max_chars text.toList)))
    | .arr items => .ok (truncatedItems formatting mode max_chars items)
    | .obj fields => if fields.length ≤ max_chars then .ok (.obj fields) else .error .typeError
    | _ => .error .typeError

def filterPart (max_chars : Nat) (mode : Mode) (item : Json) : Except PyError Json :=
  match item with
  | .obj fields =>
    if getField fields "type" = .str "text" then
      (truncate_content formatting (getFieldD fields "text" (.str "")) max_chars mode).map
        (fun text => .obj (Assoc.set fields "text" text))
    else .ok item
  | _ => .ok item

def filterMessage (max_chars : Nat) (mode : Mode) (message : Fields) : Except PyError Fields :=
  match getField message "content" with
  | .str text => (truncate_content formatting (.str text) max_chars mode).map
      (fun content => Assoc.set message "content" content)
  | .arr items => (items.mapM (filterPart formatting max_chars mode)).map
      (fun parts => Assoc.set message "content" (.arr parts))
  | _ => .ok message

def modeOf (name : List Char) : Option Mode :=
  Mode.all.find? (fun mode => decide (name.map Char.toLower = mode.name))

def apply_content_filter (messages : List Fields) (filter_str : List Char) :
    Except PyError (List Fields) :=
  match filter_str.splitOn ':' with
  | [name, digits] =>
    match int characters digits, modeOf name with
    | .ok max_chars, some mode => messages.mapM (filterMessage formatting max_chars mode)
    | _, _ => .ok messages
  | _ => .ok messages

end Filter

section Messages

variable (characters : Characters) (formatting : Formatting)

def readFilter (text : List Char) : Option (Option (List Char) × List Char) :=
  match after (· == ·) closing text with
  | some rest => some (none, rest)
  | none => do
    let rest ← after (· == ·) ['|'] text
    let name := rest.takeWhile characters.word
    if name = [] then none
    else
      let rest ← after (· == ·) [':'] (rest.dropWhile characters.word)
      let (digits, rest) ← readDigits characters rest
      let rest ← after (· == ·) closing rest
      some (some (name ++ [':'] ++ digits), rest)

def readSelected (variable_name text : List Char) (mode : Mode) :
    Option (MessagesVariable × List Char) := do
  let rest ← after (· == ·) (opening ++ variable_name ++ [':'] ++ mode.upperName ++ [':']) text
  let (digits, rest) ← readDigits characters rest
  let (content_filter, rest) ← readFilter characters rest
  some (⟨some (mode, digits), content_filter⟩, rest)

def readMessages (variable_name text : List Char) : Option (MessagesVariable × List Char) :=
  match (after (· == ·) (opening ++ variable_name) text).bind (readFilter characters) with
  | some (content_filter, rest) => some (⟨none, content_filter⟩, rest)
  | none => Mode.all.findSome? (readSelected characters variable_name text)

/-- `selected`, before the filter. -/
def selectMessages (messages : List Fields) : Option (Mode × List Char) → Except PyError (List Fields)
  | none => .ok messages
  | some (.start, digits) => (int characters digits).map (fun length => messages.take length)
  | some (.end_, digits) => (int characters digits).map (fun length => fromEnd length messages)
  | some (.middletruncate, digits) => (int characters digits).map (fun mid =>
      if messages.length ≤ mid then messages
      else
        let half := mid / 2
        messages.take half ++ (if mid % 2 = 0 then fromEnd half messages
          else fromEnd (half + 1) messages))

def filtered (variable_ : MessagesVariable) (selected : List Fields) : Except PyError (List Fields) :=
  match variable_.content_filter with
  | none => .ok selected
  | some filter_str => apply_content_filter characters formatting selected filter_str

def messageLine (message : Fields) : Except PyError String :=
  match message.lookup "role" with
  | none => .error .keyError
  | some (.str role) => .ok (characters.upper role ++ ": " ++
      formatting.text (get_content_from_message formatting message))
  | some _ => .error .attributeError

def get_messages_content (messages : List Fields) : Except PyError (List Char) :=
  (messages.mapM (messageLine characters formatting)).map (fun lines =>
    ("\n".intercalate lines).toList)

/-- `replacement_function`. -/
def expandMessages (messages : Option (List Fields)) (variable_ : MessagesVariable) :
    Except PyError (List Char) :=
  match messages with
  | none => .ok []
  | some messages => do
    let selected ← selectMessages characters messages variable_.selection
    let selected ← filtered characters formatting variable_ selected
    get_messages_content characters formatting selected

def replace_messages_variable (template : List Char) (messages : Option (List Fields))
    (variable_name : List Char) : Except PyError (List Char) :=
  sub (readMessages characters variable_name) (expandMessages characters formatting messages) template

end Messages

end OpenWebui.Templates
