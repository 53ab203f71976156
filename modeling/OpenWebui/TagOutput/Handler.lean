import OpenWebui.Base.Dict
import OpenWebui.Base.Search
import OpenWebui.Base.Text

/-! The patterns that find the tags of a streamed text, and what they find. -/

namespace OpenWebui.TagOutput

open Text Search

/-- `start_tag.startswith('<') and start_tag.endswith('>')`. -/
def bracketed (start_tag : List Char) : Bool :=
  decide (start_tag.head? = some '<' ∧ start_tag.getLast? = some '>')

/-- `.*?>`: a line goes on up to the next bracket. -/
def closeBracket : List Char → Option (List Char × List Char)
  | [] => none
  | char :: rest =>
    if char = '>' then some ([], rest)
    else if char = '\n' then none
    else (closeBracket rest).map (fun found => (char :: found.1, found.2))

/-- `(\s.*?)?>`: what the group matches, if anything. -/
def attributeList : List Char → Option (List Char × List Char)
  | [] => none
  | char :: rest =>
    if char = '>' then some ([], rest)
    else if isSpace char then (closeBracket rest).map (fun found => (char :: found.1, found.2))
    else none

/-- `_start_tag_pattern(start_tag)` at the front of a text. -/
def startTag (start_tag : List Char) : Front Char (List Char) := fun text =>
  if bracketed start_tag then
    match literal start_tag.dropLast text with
    | some (_, rest) => attributeList rest
    | none => none
  else (literal start_tag text).map (fun found => ([], found.2))

/-- What a search finds: the text before the match, its group and the text after it. -/
structure Found where
  before_tag : List Char
  attr_content : List Char
  after_tag : List Char
deriving DecidableEq

/-- `re.compile(_start_tag_pattern(start_tag)).search(item_text, search_start)`. -/
def search (start_tag : List Char) (search_start : Nat) (item_text : List Char) : Option Found :=
  (leftmost (startTag start_tag) (item_text.drop search_start)).map (fun found =>
    ⟨item_text.take search_start ++ found.1, found.2.1, found.2.2⟩)

/-- `re.sub(start_tag_pattern, '', text)`, over the characters that a match has yet to take. -/
def removeTags (start_tag : List Char) : Nat → List Char → List Char
  | _, [] => []
  | taken + 1, _ :: rest => removeTags start_tag taken rest
  | 0, char :: rest =>
    match startTag start_tag (char :: rest) with
    | some (_, after) => removeTags start_tag (rest.length - after.length) rest
    | none => char :: removeTags start_tag 0 rest

def remove (start_tag text : List Char) : List Char :=
  if start_tag = [] then text else removeTags start_tag 0 text

def firstPlace (tag text : List Char) : Option (List Char × List Char) :=
  (leftmost (literal tag) text).map (fun found => (found.1, found.2.2))

/-- `\s*=\s*"([^"]+)"` at the front of a text: the value, and the text behind. -/
def attributeValue (text : List Char) : Option (List Char × List Char) :=
  match lstrip text with
  | '=' :: rest =>
    match lstrip rest with
    | '"' :: rest =>
      let value := rest.takeWhile (fun char => decide (char ≠ '"'))
      match rest.dropWhile (fun char => decide (char ≠ '"')) with
      | _ :: after => if value = [] then none else some (value, after)
      | [] => none
    | _ => none
  | _ => none

/-- `(\w+)\s*=\s*"([^"]+)"` at the front of a text, for the characters that `\w` matches. -/
def attributePair (word : Char → Bool) : Front Char (List Char × List Char) := fun text =>
  match text.takeWhile word with
  | [] => none
  | key => (attributeValue (text.dropWhile word)).map (fun found => ((key, found.1), found.2))

/-- The pairs that `re.findall` finds, over a bound on their number. -/
def findAttributes (word : Char → Bool) : Nat → List Char → List (List Char × List Char)
  | 0, _ => []
  | fuel + 1, text =>
    match leftmost (attributePair word) text with
    | some (_, pair, after) => pair :: findAttributes word fuel after
    | none => []

/-- `extract_attributes`: the last value of an attribute counts. -/
def extract_attributes (word : Char → Bool) (tag_content : List Char) :
    Dict (List Char) (List Char) :=
  (findAttributes word tag_content.length tag_content).foldl
    (fun attributes pair => attributes.set pair.1 pair.2) Dict.empty

theorem closeBracket_reads {text group rest : List Char}
    (closed : closeBracket text = some (group, rest)) :
    text = group ++ '>' :: rest ∧ '>' ∉ group ∧
      ∀ more, closeBracket (group ++ '>' :: more) = some (group, more) := by
  induction text generalizing group with
  | nil => cases closed
  | cons char tail ih =>
    rw [closeBracket] at closed
    split at closed
    · rename_i bracket
      subst bracket
      cases closed
      exact ⟨rfl, List.not_mem_nil, fun more => by simp [closeBracket]⟩
    · rename_i other
      split at closed
      · cases closed
      · rename_i line
        obtain ⟨⟨shorter, _⟩, later, same⟩ := Option.map_eq_some_iff.mp closed
        cases same
        obtain ⟨rfl, free, again⟩ := ih later
        refine ⟨rfl, by simp [Ne.symm other, free], fun more => ?_⟩
        rw [List.cons_append, closeBracket, if_neg other, if_neg line, again]
        rfl

theorem attributeList_reads {text group rest : List Char}
    (listed : attributeList text = some (group, rest)) :
    text = group ++ '>' :: rest ∧ '>' ∉ group ∧
      ∀ more, attributeList (group ++ '>' :: more) = some (group, more) := by
  cases text with
  | nil => cases listed
  | cons char tail =>
    rw [attributeList] at listed
    split at listed
    · rename_i bracket
      subst bracket
      cases listed
      exact ⟨rfl, List.not_mem_nil, fun more => by simp [attributeList]⟩
    · rename_i other
      split at listed
      · rename_i space
        obtain ⟨⟨shorter, _⟩, closed, same⟩ := Option.map_eq_some_iff.mp listed
        cases same
        obtain ⟨rfl, free, again⟩ := closeBracket_reads closed
        refine ⟨rfl, by simp [Ne.symm other, free], fun more => ?_⟩
        rw [List.cons_append, attributeList, if_neg other, if_pos space, again]
        rfl
      · cases listed

theorem startTag_bracketed {start_tag text group rest : List Char}
    (bracket : bracketed start_tag = true) :
    startTag start_tag text = some (group, rest) ↔
      ∃ behind, text = start_tag.dropLast ++ behind ∧ attributeList behind = some (group, rest) := by
  rw [startTag, if_pos bracket]
  constructor
  · intro here
    split at here
    · rename_i _ behind opens
      exact ⟨behind, literal_eq_some.mp opens, here⟩
    · cases here
  · rintro ⟨behind, rfl, listed⟩
    rw [literal_append]
    exact listed

theorem startTag_literal {start_tag text group rest : List Char}
    (plain : bracketed start_tag ≠ true) :
    startTag start_tag text = some (group, rest) ↔ text = start_tag ++ rest ∧ group = [] := by
  rw [startTag, if_neg plain]
  constructor
  · intro here
    obtain ⟨⟨_, _⟩, stands, same⟩ := Option.map_eq_some_iff.mp here
    cases same
    exact ⟨literal_eq_some.mp stands, rfl⟩
  · rintro ⟨rfl, rfl⟩
    rw [literal_append]
    rfl

theorem reads_startTag (start_tag : List Char) : Reads (startTag start_tag) := by
  intro text group rest here
  by_cases bracket : bracketed start_tag = true
  · obtain ⟨behind, rfl, listed⟩ := (startTag_bracketed bracket).mp here
    obtain ⟨rfl, _, again⟩ := attributeList_reads listed
    refine ⟨start_tag.dropLast ++ group ++ ['>'], by simp, fun more => ?_⟩
    exact (startTag_bracketed bracket).mpr ⟨group ++ '>' :: more, by simp, again more⟩
  · obtain ⟨rfl, rfl⟩ := (startTag_literal bracket).mp here
    exact ⟨start_tag, rfl, fun more => (startTag_literal bracket).mpr ⟨rfl, rfl⟩⟩

open Text

inductive ContentType where
  | reasoning
  | solution
  | code_interpreter
  deriving DecidableEq

inductive ItemType where
  | message
  | reasoning
  | code_interpreter
  | other
  deriving DecidableEq

/-- `output_type_map`. -/
def ContentType.output_item_type : ContentType → ItemType
  | .reasoning => .reasoning
  | .solution => .message
  | .code_interpreter => .code_interpreter

/-- An output item; its text is the last text of its content, or its code. Items that have no id
are not remembered. -/
structure Item where
  type : ItemType
  id : Option Nat
  in_progress : Bool
  text : List Char
  tag_type : Option ContentType
  start_tag : List Char
  end_tag : List Char
  attributes : Dict (List Char) (List Char)
  lang : Option (List Char)

/-- The output, its last item first, the `tag_scan_positions`, and the next id. -/
structure State where
  output : List Item
  tag_scan_positions : Dict (Nat × ContentType) Nat
  next_id : Nat

abbrev Tag := List Char × List Char

def State.get_scanned_length (state : State) (content_type : ContentType) (item : Item) : Nat :=
  match item.id with
  | none => 0
  | some id =>
    let scanned_length := (state.tag_scan_positions.get? (id, content_type)).getD 0
    if scanned_length ≤ item.text.length then scanned_length else 0

def State.save_scanned_length (state : State) (content_type : ContentType) (item : Item) : State :=
  match item.id with
  | none => state
  | some id =>
    { state with
      tag_scan_positions := state.tag_scan_positions.set (id, content_type) item.text.length }

def State.clear_scanned_length (state : State) (content_type : ContentType) (item : Item) :
    State :=
  match item.id with
  | none => state
  | some id =>
    { state with tag_scan_positions := state.tag_scan_positions.erase (id, content_type) }

/-- `text.rfind(char)`. -/
def rfind (char : Char) : List Char → Int
  | [] => -1
  | first :: rest =>
    if 0 ≤ rfind char rest then rfind char rest + 1 else if first = char then 0 else -1

/-- `max((len(start_tag) for start_tag, _ in tags), default=1)`. -/
def max_start_tag_length (tags : List Tag) : Nat :=
  if tags.isEmpty then 1 else (tags.map (fun tag => tag.1.length)).foldr max 0

def search_start (tags : List Tag) (scanned_length : Nat) (item_text : List Char) : Nat :=
  let start := scanned_length + 1 - max_start_tag_length tags
  if scanned_length ≠ 0 ∧ tags.any (fun tag => bracketed tag.1) = true then
    let scanned := item_text.take scanned_length
    let last_tag_boundary := max (rfind '>' scanned) (rfind '\n' scanned)
    let open_tag_start := rfind '<' scanned
    if last_tag_boundary < open_tag_start then min start open_tag_start.toNat else start
  else start

def end_tag_search_start (end_tag : List Char) (scanned_length : Nat) : Nat :=
  scanned_length + 1 - max end_tag.length 1

def find_start_tag (tags : List Tag) (start : Nat) (item_text : List Char) :
    Option (Tag × Found) :=
  tags.findSome? (fun tag => (search tag.1 start item_text).map (fun found => (tag, found)))

/-- `block_content.find(end_tag, start)`. -/
def find_end_tag (end_tag : List Char) (start : Nat) (block_content : List Char) : Option Nat :=
  if start ≤ block_content.length then
    (firstPlace end_tag (block_content.drop start)).map (fun parts => start + parts.1.length)
  else none

def newMessage (id : Nat) (text : List Char) : Item where
  type := .message
  id := some id
  in_progress := true
  text := text
  tag_type := none
  start_tag := []
  end_tag := []
  attributes := Dict.empty
  lang := none

def openedItem (word : Char → Bool) (content_type : ContentType) (id : Nat) (tag : Tag)
    (found : Found) : Item where
  type := content_type.output_item_type
  id := some id
  in_progress := true
  text := found.after_tag
  tag_type := if content_type = .solution then some content_type else none
  start_tag := tag.1
  end_tag := tag.2
  attributes := extract_attributes word found.attr_content
  lang :=
    if content_type = .code_interpreter then
      some (((extract_attributes word found.attr_content).get? "lang".toList).getD
        "python".toList)
    else none

/-- A start tag has been found in the last item, a message: the text before it stays there, and a
message without text goes. -/
def State.open_tag (state : State) (word : Char → Bool) (content_type : ContentType)
    (item : Item) (earlier : List Item) (tag : Tag) (found : Found) : State where
  output := openedItem word content_type state.next_id tag found ::
    (if blank found.before_tag then earlier
      else { item with text := found.before_tag } :: earlier)
  tag_scan_positions := (state.clear_scanned_length content_type item).tag_scan_positions
  next_id := state.next_id + 1

def splitBlock (item : Item) : List Char × List Char :=
  let block_content := strip (remove item.start_tag item.text)
  match firstPlace item.end_tag block_content with
  | some (before, after) => (strip before, strip after)
  | none => (strip block_content, [])

/-- The end tag has been found in the last item: a block without content goes, and a message with
what is left over follows. -/
def State.close_tag (state : State) (content_type : ContentType) (item : Item)
    (earlier : List Item) : State where
  output := newMessage state.next_id (splitBlock item).2 ::
    (if (splitBlock item).1.isEmpty then earlier
      else
        { item with
          text := (splitBlock item).1
          in_progress := item.in_progress && decide (item.type ≠ .reasoning) } :: earlier)
  tag_scan_positions := (state.clear_scanned_length content_type item).tag_scan_positions
  next_id := state.next_id + 1

/-- What a call finds: a start tag and its place, or the place of an end tag. -/
inductive Find where
  | start_tag (tag : Tag) (position : Nat)
  | end_tag (position : Nat)
  deriving DecidableEq

/-- What a call leaves and returns, and the tags that it found, in order. It returns nothing where
it calls itself on the same text again and again. -/
structure Handled where
  result : Option (State × Bool)
  finds : List Find

def Item.isBlock (item : Item) (content_type : ContentType) : Bool :=
  decide ((item.type = .reasoning ∧ content_type = .reasoning) ∨
    (item.type = .code_interpreter ∧ content_type = .code_interpreter) ∨
      (item.type = .message ∧ item.tag_type = some content_type))

def State.lastText (state : State) : List Char := (state.output.head?.map Item.text).getD []

def State.startOf (state : State) (memo : Bool) (content_type : ContentType) (tags : List Tag)
    (item : Item) : Nat :=
  if memo then search_start tags (state.get_scanned_length content_type item) item.text else 0

def State.endOf (state : State) (memo : Bool) (content_type : ContentType) (item : Item) : Nat :=
  if memo then end_tag_search_start item.end_tag (state.get_scanned_length content_type item)
  else 0

def handleBlock (memo : Bool) (content_type : ContentType) (state : State) (item : Item)
    (earlier : List Item) : Handled :=
  match find_end_tag item.end_tag (state.endOf memo content_type item) item.text with
  | some position => ⟨some (state.close_tag content_type item earlier, true), [.end_tag position]⟩
  | none => ⟨some (state.save_scanned_length content_type item, false), []⟩

/-- `tag_output_handler`. -/
def tag_output_handler (memo : Bool) (word : Char → Bool) (content_type : ContentType)
    (tags : List Tag) (state : State) : Handled :=
  match last : state.output with
  | [] => ⟨some (state, false), []⟩
  | item :: earlier =>
    if item.type = .message then
      match find_start_tag tags (state.startOf memo content_type tags item) item.text with
      | none => ⟨some (state.save_scanned_length content_type item, false), []⟩
      | some (tag, found) =>
        let opened := state.open_tag word content_type item earlier tag found
        let find := Find.start_tag tag found.before_tag.length
        if found.after_tag.isEmpty then ⟨some (opened, false), [find]⟩
        else if opened.lastText.length < item.text.length then
          let later := tag_output_handler memo word content_type tags opened
          ⟨later.result, find :: later.finds⟩
        else ⟨none, [find]⟩
    else if item.isBlock content_type then handleBlock memo content_type state item earlier
    else ⟨some (state, false), []⟩
termination_by state.lastText.length
decreasing_by
  rename_i shorter
  have text : state.lastText = item.text := by
    rw [State.lastText, last]
    rfl
  rw [text]
  exact shorter

/-- `attributes.get('type') == 'reasoning_content'`. -/
def Item.isReasoningContent (item : Item) : Bool :=
  decide (item.attributes.get? "type".toList = some "reasoning_content".toList)

/-- `inside_tag_block`. -/
def Item.inside_tag_block (item : Item) : Bool :=
  item.in_progress && !item.isReasoningContent &&
    (decide (item.type = .reasoning) || decide (item.type = .code_interpreter) ||
      (decide (item.type = .message) && item.tag_type.isSome))

def Item.complete_reasoning (item : Item) : Item :=
  if item.type = .reasoning ∧ item.isReasoningContent = true then
    { item with in_progress := false }
  else item

def State.append (state : State) (value : List Char) : State :=
  match state.output with
  | [] => ⟨[newMessage state.next_id value], state.tag_scan_positions, state.next_id + 1⟩
  | item :: earlier =>
    if item.inside_tag_block || decide (item.type = .message) then
      { state with output := { item with text := item.text ++ value } :: earlier }
    else
      ⟨newMessage state.next_id value :: item.complete_reasoning :: earlier,
        state.tag_scan_positions, state.next_id + 1⟩

inductive Event where
  | append (value : List Char)
  | handle (content_type : ContentType)

def step (memo : Bool) (word : Char → Bool) (tags : ContentType → List Tag) (state : State) :
    Event → Handled
  | .append value => ⟨some (state.append value, false), []⟩
  | .handle content_type => tag_output_handler memo word content_type (tags content_type) state

def after (memo : Bool) (word : Char → Bool) (tags : ContentType → List Tag) (start : State)
    (events : List Event) : Option State :=
  events.foldlM (fun state event => (step memo word tags state event).result.map Prod.fst) start

def Handled.seen (handled : Handled) : Option (List Item × Bool) × List Find :=
  (handled.result.map (fun result => (result.1.output, result.2)), handled.finds)

def seen (memo : Bool) (word : Char → Bool) (tags : ContentType → List Tag) (start : State)
    (earlier : List Event) (event : Event) : Option (Option (List Item × Bool) × List Find) :=
  (after memo word tags start earlier).map (fun state => (step memo word tags state event).seen)

def begin (output : List Item) : State where
  output := output
  tag_scan_positions := Dict.empty
  next_id := (output.map (fun item => item.id.getD 0 + 1)).foldr max 0

section Call

variable {memo : Bool} {word : Char → Bool} {content_type : ContentType} {tags : List Tag}
  {state : State} {item : Item} {earlier : List Item}

theorem handler_nil (last : state.output = []) :
    tag_output_handler memo word content_type tags state = ⟨some (state, false), []⟩ := by
  rw [tag_output_handler]
  split
  · rfl
  · rename_i other
    rw [last] at other
    cases other

theorem handler_cons (last : state.output = item :: earlier) :
    tag_output_handler memo word content_type tags state =
      if item.type = .message then
        match find_start_tag tags (state.startOf memo content_type tags item) item.text with
        | none => ⟨some (state.save_scanned_length content_type item, false), []⟩
        | some (tag, found) =>
          let opened := state.open_tag word content_type item earlier tag found
          let find := Find.start_tag tag found.before_tag.length
          if found.after_tag.isEmpty then ⟨some (opened, false), [find]⟩
          else if opened.lastText.length < item.text.length then
            let later := tag_output_handler memo word content_type tags opened
            ⟨later.result, find :: later.finds⟩
          else ⟨none, [find]⟩
      else if item.isBlock content_type then handleBlock memo content_type state item earlier
      else ⟨some (state, false), []⟩ := by
  rw [tag_output_handler]
  split
  · rename_i other
    rw [last] at other
    cases other
  · rename_i same
    rw [last] at same
    cases same
    rfl

theorem handler_none (last : state.output = item :: earlier) (message : item.type = .message)
    (nowhere : find_start_tag tags (state.startOf memo content_type tags item) item.text = none) :
    tag_output_handler memo word content_type tags state =
      ⟨some (state.save_scanned_length content_type item, false), []⟩ := by
  rw [handler_cons last, if_pos message]
  simp only [nowhere]

theorem handler_some (last : state.output = item :: earlier) (message : item.type = .message)
    {tag : Tag} {found : Found}
    (here : find_start_tag tags (state.startOf memo content_type tags item) item.text =
      some (tag, found)) :
    tag_output_handler memo word content_type tags state =
      if found.after_tag.isEmpty then
        ⟨some (state.open_tag word content_type item earlier tag found, false),
          [.start_tag tag found.before_tag.length]⟩
      else if found.after_tag.length < item.text.length then
        ⟨(tag_output_handler memo word content_type tags
            (state.open_tag word content_type item earlier tag found)).result,
          .start_tag tag found.before_tag.length :: (tag_output_handler memo word content_type tags
            (state.open_tag word content_type item earlier tag found)).finds⟩
      else ⟨none, [.start_tag tag found.before_tag.length]⟩ := by
  rw [handler_cons last, if_pos message]
  simp only [here]
  rfl

theorem handler_other (last : state.output = item :: earlier) (other : item.type ≠ .message) :
    tag_output_handler memo word content_type tags state =
      if item.isBlock content_type then handleBlock memo content_type state item earlier
      else ⟨some (state, false), []⟩ := by
  rw [handler_cons last, if_neg other]

end Call

end OpenWebui.TagOutput
