import Mathlib.Algebra.GroupWithZero.Nat
import OpenWebui.Base.Occurs
import OpenWebui.Base.Pieces
import OpenWebui.Base.Text
import OpenWebui.Completions.Messages

/-! A chat completion payload as the Responses API takes it. -/

namespace OpenWebui.Completions

inductive InputPart where
  | text (type text : String)
  | input_image (image_url : String)

inductive InputItem where
  | message (role : String) (content : List InputPart)
  | function_call (call_id name arguments : String)
  | function_call_output (call_id : String) (output : Content)
  | stored (item : Fields)

/-- A payload; `params` are its fields other than the messages. -/
structure ChatPayload where
  messages : List Message
  params : Fields

/-- `params` are the fields other than the input and the instructions of the messages. -/
structure ResponsesPayload where
  input : List InputItem
  instructions : Option String
  params : Fields

def RESPONSES_ALLOWED_FIELDS : List (String × List String) :=
  [("message", ["type", "role", "content"]),
    ("function_call", ["type", "call_id", "name", "arguments", "id"]),
    ("function_call_output", ["type", "call_id", "output"])]

def normalize_stored_item (item : Fields) : Fields :=
  match (getFieldD item "type" (.str "")).str?.bind (fun type => RESPONSES_ALLOWED_FIELDS.lookup type) with
  | some allowed => item.filter (fun field => decide (field.1 ∈ allowed))
  | none => item

def joinTexts (parts : List Part) : String := "\n".intercalate (parts.filterMap Part.text?)

structure ConvertState where
  system_content : String
  input_items : List InputItem

def convert_part (text_type : String) : Part → Option InputPart
  | .text text => some (.text text_type (text.getD ""))
  | .image_url url => some (.input_image (url.getD ""))
  | .other _ => none

def Content.plain : Content → String
  | .null => ""
  | .text whole => whole
  | .parts items => joinTexts items

def textItems (content : Content) : List InputItem :=
  if Text.strip content.plain.toList = [] then []
  else [.message "assistant" [.text "output_text" content.plain]]

def convert_call (tool_call : ToolCall) : InputItem :=
  .function_call (tool_call.id.getD "") (tool_call.name.getD "") (tool_call.arguments.getD "\x7b\x7d")

def convertNext (state : ConvertState) (msg : Message) : ConvertState :=
  let content := msg.content.getD (.text "")
  if msg.output ≠ [] then
    { state with input_items := state.input_items ++
        msg.output.map (fun item => .stored (normalize_stored_item item)) }
  else if msg.role = "system" then
    match content with
    | .text text => { state with system_content := text }
    | .parts parts => { state with system_content := joinTexts parts }
    | .null => state
  else if msg.role = "assistant" ∧ msg.tool_calls ≠ [] then
    { state with input_items := state.input_items ++
        (textItems content ++ msg.tool_calls.map convert_call) }
  else if msg.role = "tool" then
    { state with input_items := state.input_items ++
        [.function_call_output (msg.tool_call_id.getD "") content] }
  else
    let text_type := if msg.role = "assistant" then "output_text" else "input_text"
    let content_parts := match content with
      | .text text => [.text text_type text]
      | .parts parts => parts.filterMap (convert_part text_type)
      -- `str(None)`
      | .null => [.text text_type "None"]
    { state with input_items := state.input_items ++ [.message msg.role content_parts] }

/-- `d[new] = d.pop(old)` where there is an old one. -/
def rename (fields : Fields) (old new : String) : Fields :=
  match fields.lookup old with
  | some value => Assoc.set (Assoc.erase fields old) new value
  | none => fields

def unsupported_keys : List String :=
  ["stream_options", "logit_bias", "frequency_penalty", "presence_penalty", "stop"]

def convert_tool : Json → Json
  | .obj tool =>
    match tool.lookup "function" with
    | none => .obj tool
    | some func => .obj (("type", getFieldD tool "type" (.str "function")) ::
        match func with
        | .obj func => ("name", getFieldD func "name" (.str "")) ::
            ["description", "parameters", "strict"].filterMap (fun key =>
              (func.lookup key).map (fun value => (key, value)))
        | _ => [])
  | tool => tool

def convert_tools (fields : Fields) : Fields :=
  match fields.lookup "tools" with
  | some (.arr tools) => Assoc.set fields "tools" (.arr (tools.map convert_tool))
  | _ => fields

def convert_params (params : Fields) (system_content : String) : Fields :=
  let params := Assoc.erase params "input"
  let previous_response_id := getField params "previous_response_id"
  let params := Assoc.erase params "previous_response_id"
  let params :=
    if previous_response_id.truthy then params ++ [("previous_response_id", previous_response_id)]
    else params
  let params := if system_content = "" then params else Assoc.erase params "instructions"
  let params := rename params "max_tokens" "max_output_tokens"
  let params := rename params "max_completion_tokens" "max_output_tokens"
  convert_tools (unsupported_keys.foldl Assoc.erase params)

def convert_to_responses_payload (payload : ChatPayload) : ResponsesPayload :=
  let state := payload.messages.foldl convertNext ⟨"", []⟩
  { input := state.input_items
    instructions := if state.system_content = "" then none else some state.system_content
    params := convert_params payload.params state.system_content }

inductive Mark where
  | image (role url : String)
  | call (call_id name arguments : String)
  | result (call_id : String) (output : Content)

abbrev Pieces := List (Piece String Mark)

def Part.piece (role : String) : Part → Pieces
  | .text value => Piece.texts role [(value.getD "").toList]
  | .image_url value => [.mark (.image role (value.getD ""))]
  | .other _ => []

def Content.pieces (role : String) : Content → Pieces
  | .null => []
  | .text whole => Piece.texts role [whole.toList]
  | .parts items => items.flatMap (Part.piece role)

def ToolCall.mark (tool_call : ToolCall) : Mark :=
  .call (tool_call.id.getD "") (tool_call.name.getD "") (tool_call.arguments.getD "\x7b\x7d")

def callPieces (tool_calls : List ToolCall) : Pieces :=
  tool_calls.map (fun tool_call => .mark tool_call.mark)

def Message.pieces (message : Message) : Pieces :=
  if message.role = "system" then []
  else if message.role = "tool" then
    [.mark (.result (message.tool_call_id.getD "") (message.content.getD (.text "")))]
  else (message.content.getD (.text "")).pieces message.role ++
    if message.role = "assistant" then callPieces message.tool_calls else []

def Message.systemText (message : Message) : String := (message.content.getD (.text "")).plain

def Message.isSystem (message : Message) : Bool := decide (message.role = "system")

def Message.instructs (message : Message) : Bool :=
  message.isSystem && match message.content with
    | some .null => false
    | _ => true

def systemPieces (messages : List Message) : Pieces :=
  Piece.texts "system" ((messages.filter Message.isSystem).map (fun message => message.systemText.toList))

def InputPart.piece (role : String) : InputPart → Piece String Mark
  | .text _ shown => .text role shown.toList
  | .input_image image_url => .mark (.image role image_url)

def InputItem.pieces : InputItem → Pieces
  | .message role content => content.map (InputPart.piece role)
  | .function_call call_id name arguments => [.mark (.call call_id name arguments)]
  | .function_call_output call_id output => [.mark (.result call_id output)]
  | .stored _ => []

/-- The instructions are the system texts and the input is the rest of the conversation, each text,
image, call and result once and in order, and no text is added. -/
structure KeepsConversation (messages : List Message) (converted : ResponsesPayload) : Prop where
  instructions : Piece.Carries (systemPieces messages)
    [.text "system" (converted.instructions.getD "").toList]
  input : Piece.Carries (messages.flatMap Message.pieces) (converted.input.flatMap InputItem.pieces)

/-- A system message that the text of a later one replaces has none of its own. -/
def LastSystem (messages : List Message) : Prop :=
  ∀ earlier message later, messages = earlier ++ message :: later → message.isSystem = true →
    (∃ other ∈ later, other.instructs = true) → message.systemText = ""

/-- A message whose branch carries all of it. -/
def Carriable (message : Message) : Prop :=
  message.role ≠ "system" → message.role ≠ "tool" →
    if message.role = "assistant" ∧ message.tool_calls ≠ [] then
      message.images = [] ∧ ((∀ text ∈ message.texts, text = "") ∨
        ∃ text ∈ message.texts, Text.blank text.toList = false)
    else message.content ≠ some .null

def itemsOf (message : Message) : List InputItem :=
  (convertNext ⟨"", []⟩ message).input_items

theorem convertNext_items (state : ConvertState) (message : Message) :
    (convertNext state message).input_items = state.input_items ++ itemsOf message := by
  unfold itemsOf convertNext
  dsimp only
  split
  · simp
  · split
    · cases message.content.getD (.text "") <;> simp
    · split
      · simp
      · split <;> simp

theorem foldl_items (messages : List Message) (state : ConvertState) :
    (messages.foldl convertNext state).input_items = state.input_items ++ messages.flatMap itemsOf := by
  induction messages generalizing state with
  | nil => simp
  | cons message rest ih => rw [List.foldl_cons, ih, convertNext_items, List.flatMap_cons, List.append_assoc]

theorem convertNext_system {message : Message} (fresh : message.output = []) (state : ConvertState) :
    (convertNext state message).system_content =
      if message.instructs = true then message.systemText else state.system_content := by
  unfold convertNext Message.instructs Message.isSystem Message.systemText
  dsimp only
  rw [if_neg (not_not.mpr fresh)]
  by_cases system : message.role = "system"
  · rw [if_pos system]
    cases content : message.content with
    | none => simp [system, Content.plain]
    | some held => cases held <;> simp [system, Content.plain]
  · rw [if_neg system]
    split
    · simp [system]
    · split <;> simp [system]

def instructionsOf (start : String) (messages : List Message) : String :=
  messages.foldl (fun text message => if message.instructs = true then message.systemText else text) start

theorem foldl_system {messages : List Message} (fresh : ∀ message ∈ messages, message.output = [])
    (state : ConvertState) : (messages.foldl convertNext state).system_content =
      instructionsOf state.system_content messages := by
  induction messages generalizing state with
  | nil => rfl
  | cons message rest ih =>
    rw [List.foldl_cons, ih (fun other member => fresh other (List.mem_cons_of_mem _ member)),
      convertNext_system (fresh message List.mem_cons_self)]
    rfl

def systemTexts (messages : List Message) : List (List Char) :=
  (messages.filter Message.isSystem).map (fun message => message.systemText.toList)

theorem isSystem_of_instructs {message : Message} (instructs : message.instructs = true) :
    message.isSystem = true := (Bool.and_eq_true_iff.mp instructs).1

theorem systemText_of_silent {message : Message} (system : message.isSystem = true)
    (silent : message.instructs ≠ true) : message.systemText = "" := by
  unfold Message.instructs at silent
  rw [system] at silent
  cases content : message.content with
  | none =>
    rw [content] at silent
    exact absurd rfl silent
  | some held =>
    cases held with
    | null =>
      rw [Message.systemText, content]
      rfl
    | text whole =>
      rw [content] at silent
      exact absurd rfl silent
    | parts items =>
      rw [content] at silent
      exact absurd rfl silent

theorem lastSystem_cons {message : Message} {rest : List Message} :
    LastSystem (message :: rest) ↔ (message.isSystem = true →
      (∃ other ∈ rest, other.instructs = true) → message.systemText = "") ∧ LastSystem rest := by
  constructor
  · intro last
    refine ⟨last [] message rest rfl, fun earlier other later split => ?_⟩
    exact last (message :: earlier) other later (by rw [split]; rfl)
  · rintro ⟨first, last⟩ earlier other later split
    cases earlier with
    | nil =>
      obtain ⟨rfl, rfl⟩ := List.cons.inj split
      exact first
    | cons head tail =>
      obtain ⟨rfl, remains⟩ := List.cons.inj split
      exact last tail other later remains

theorem silent_texts {messages : List Message} (silent : ¬ ∃ message ∈ messages, message.instructs = true)
    (start : String) : (∀ text ∈ systemTexts messages, text = []) ∧ instructionsOf start messages = start ∧
      LastSystem messages := by
  refine ⟨?_, ?_, ?_⟩
  · intro text member
    obtain ⟨message, held, rfl⟩ := List.mem_map.mp member
    obtain ⟨inside, system⟩ := List.mem_filter.mp held
    have empty := systemText_of_silent system (fun instructs => silent ⟨message, inside, instructs⟩)
    rw [empty]
    rfl
  · unfold instructionsOf
    induction messages with
    | nil => rfl
    | cons message rest ih =>
      rw [List.foldl_cons, if_neg (fun instructs => silent ⟨message, List.mem_cons_self, instructs⟩)]
      exact ih (fun ⟨other, member, instructs⟩ =>
        silent ⟨other, List.mem_cons_of_mem _ member, instructs⟩)
  · rintro earlier message later rfl _ ⟨other, member, instructs⟩
    exact absurd ⟨other, by simp [member], instructs⟩ silent

theorem systemTexts_cons (message : Message) (rest : List Message) : systemTexts (message :: rest) =
    (if message.isSystem = true then [message.systemText.toList] else []) ++ systemTexts rest := by
  unfold systemTexts
  by_cases system : message.isSystem = true
  · rw [List.filter_cons_of_pos system, if_pos system]
    rfl
  · rw [List.filter_cons_of_neg system, if_neg system]
    rfl

def systemSize (messages : List Message) : Nat := ((systemTexts messages).map List.length).sum

theorem instructions_le {messages : List Message} (instructed : ∃ message ∈ messages, message.instructs = true)
    (start : String) : (instructionsOf start messages).toList.length ≤ systemSize messages := by
  induction messages generalizing start with
  | nil =>
    obtain ⟨message, member, _⟩ := instructed
    cases member
  | cons message rest ih =>
    rw [systemSize, systemTexts_cons, List.map_append, List.sum_append]
    by_cases later : ∃ other ∈ rest, other.instructs = true
    · have within := ih later (if message.instructs = true then message.systemText else start)
      rw [systemSize] at within
      exact Nat.le_trans within (Nat.le_add_left _ _)
    · obtain ⟨other, member, instructs⟩ := instructed
      rcases List.mem_cons.mp member with rfl | member
      · rw [instructionsOf, List.foldl_cons, if_pos instructs, if_pos (isSystem_of_instructs instructs)]
        have stays := (silent_texts later other.systemText).2.1
        rw [instructionsOf] at stays
        rw [stays]
        simp
      · exact absurd ⟨other, member, instructs⟩ later

theorem lastSystem_of_size {messages : List Message} {start : String}
    (within : systemSize messages ≤ (instructionsOf start messages).toList.length) :
    LastSystem messages := by
  induction messages generalizing start with
  | nil => exact (silent_texts (by simp) "").2.2
  | cons message rest ih =>
    rw [lastSystem_cons]
    by_cases later : ∃ other ∈ rest, other.instructs = true
    · have below := instructions_le later (if message.instructs = true then message.systemText else start)
      have same : instructionsOf start (message :: rest) =
          instructionsOf (if message.instructs = true then message.systemText else start) rest := rfl
      rw [same, systemSize, systemTexts_cons, List.map_append, List.sum_append] at within
      rw [systemSize] at below
      refine ⟨fun system _ => ?_, @ih (if message.instructs = true then message.systemText else start)
        (by rw [systemSize]; omega)⟩
      rw [if_pos system] at within
      have none_left : message.systemText.toList.length = 0 := by
        simp only [List.map_cons, List.map_nil, List.sum_cons, List.sum_nil] at within
        omega
      exact String.toList_eq_nil_iff.mp (List.length_eq_zero_iff.mp none_left)
    · exact ⟨fun _ instructed => absurd instructed later, (silent_texts later "").2.2⟩

theorem texts_of_lastSystem {messages : List Message} (last : LastSystem messages)
    (instructed : ∃ message ∈ messages, message.instructs = true) (start : String) :
    (systemTexts messages).filter (fun text => !text.isEmpty) =
      [(instructionsOf start messages).toList].filter (fun text => !text.isEmpty) := by
  induction messages generalizing start with
  | nil =>
    obtain ⟨message, member, _⟩ := instructed
    cases member
  | cons message rest ih =>
    obtain ⟨first, last⟩ := lastSystem_cons.mp last
    rw [systemTexts_cons, List.filter_append]
    by_cases later : ∃ other ∈ rest, other.instructs = true
    · have empty : (if message.isSystem = true then [message.systemText.toList] else []).filter
          (fun text => !text.isEmpty) = [] := by
        by_cases system : message.isSystem = true
        · rw [if_pos system, first system later]
          rfl
        · rw [if_neg system]
          rfl
      rw [empty, List.nil_append]
      exact ih last later (if message.instructs = true then message.systemText else start)
    · obtain ⟨other, member, instructs⟩ := instructed
      rcases List.mem_cons.mp member with rfl | member
      · obtain ⟨empty, stays, _⟩ := silent_texts later other.systemText
        have none_left : (systemTexts rest).filter (fun text => !text.isEmpty) = [] := by
          rw [List.filter_eq_nil_iff]
          intro text held
          rw [empty text held]
          simp
        have same : instructionsOf start (other :: rest) = instructionsOf other.systemText rest := by
          rw [instructionsOf, List.foldl_cons, if_pos instructs]
          rfl
        rw [none_left, List.append_nil, if_pos (isSystem_of_instructs instructs), same, stays]
      · exact absurd ⟨other, member, instructs⟩ later

theorem flat_texts {ρ α : Type} (role : ρ) (texts : List (List Char)) :
    Piece.flat (Piece.texts role texts : List (Piece ρ α)) = (texts.flatten).map .inl := by
  induction texts with
  | nil => rfl
  | cons text rest ih =>
    cases text with
    | nil => exact ih
    | cons char chars =>
      rw [List.flatten_cons, List.map_append, ← ih]
      rfl

theorem instructions_iff (messages : List Message) :
    Piece.Carries (systemPieces messages) [.text "system" (instructionsOf "" messages).toList] ↔
      LastSystem messages := by
  constructor
  · intro carries
    refine @lastSystem_of_size messages "" ?_
    have within := carries.sublist.length_le
    rw [systemPieces, flat_texts, List.length_map, List.length_flatten] at within
    simpa [systemSize, Piece.flat, Piece.tokens, systemTexts] using within
  · intro last
    have whole : Piece.Carries (Piece.texts "system" [(instructionsOf "" messages).toList] : Pieces)
        [.text "system" (instructionsOf "" messages).toList] := by
      have lines := @Piece.carries_lines String Mark "system" [(instructionsOf "" messages).toList]
      rwa [List.intercalate_singleton] at lines
    by_cases instructed : ∃ message ∈ messages, message.instructs = true
    · have same := texts_of_lastSystem last instructed ""
      rw [Piece.texts, ← same] at whole
      exact whole
    · obtain ⟨empty, stays, _⟩ := silent_texts instructed ""
      have none_left : systemPieces messages = [] := by
        rw [systemPieces, Piece.texts, List.map_eq_nil_iff, List.filter_eq_nil_iff]
        intro text held
        rw [empty text held]
        simp
      rw [none_left, stays]
      exact .blank "system" .done

def shown : Char ⊕ Mark → Bool
  | .inl char => !Text.isSpace char
  | .inr _ => false

def isImage : Char ⊕ Mark → Bool
  | .inr (.image _ _) => true
  | _ => false

def isCall : Char ⊕ Mark → Bool
  | .inr (.call _ _ _) => true
  | _ => false

theorem countP_chars {kind : Char ⊕ Mark → Bool} (marks : ∀ char, kind (.inl char) = false)
    (text : List Char) : (text.map Sum.inl).countP kind = 0 := by
  rw [List.countP_eq_zero]
  intro token member
  obtain ⟨char, _, rfl⟩ := List.mem_map.mp member
  rw [marks char]
  exact Bool.false_ne_true

theorem countP_shown (text : List Char) :
    (text.map Sum.inl : List (Char ⊕ Mark)).countP shown = text.countP (fun char => !Text.isSpace char) := by
  rw [List.countP_map]
  rfl

theorem flat_part (role type : String) (parts : List Part) :
    Piece.flat (parts.flatMap (Part.piece role)) =
      Piece.flat ((parts.filterMap (convert_part type)).map (InputPart.piece role)) := by
  induction parts with
  | nil => rfl
  | cons part rest ih =>
    rw [List.flatMap_cons, Piece.flat_append, ih]
    cases part with
    | text value =>
      rw [Part.piece, flat_texts, List.flatten_singleton]
      rfl
    | image_url value => rfl
    | other kind => rfl

theorem carries_part (role type : String) (parts : List Part) :
    Piece.Carries (parts.flatMap (Part.piece role))
      ((parts.filterMap (convert_part type)).map (InputPart.piece role)) := by
  induction parts with
  | nil => exact .done
  | cons part rest ih =>
    rw [List.flatMap_cons]
    cases part with
    | text value =>
      have lines := @Piece.carries_lines String Mark role [(value.getD "").toList]
      rw [List.intercalate_singleton] at lines
      exact lines.append ih
    | image_url value => exact .mark _ ih
    | other kind => exact ih

theorem pieces_calls (tool_calls : List ToolCall) :
    (tool_calls.map convert_call).flatMap InputItem.pieces = callPieces tool_calls := by
  induction tool_calls with
  | nil => rfl
  | cons tool_call rest ih =>
    rw [List.map_cons, List.flatMap_cons, ih]
    rfl

theorem flat_calls (tool_calls : List ToolCall) :
    Piece.flat (callPieces tool_calls) = tool_calls.map (fun tool_call => .inr tool_call.mark) := by
  induction tool_calls with
  | nil => rfl
  | cons tool_call rest ih =>
    rw [callPieces, List.map_cons, Piece.flat_cons, show List.map _ rest = callPieces rest from rfl, ih]
    rfl

theorem countP_lines (lines : List (List Char)) :
    (['\n'].intercalate lines).countP (fun char => !Text.isSpace char) =
      lines.flatten.countP (fun char => !Text.isSpace char) :=
  Occur.countP_join (fun _ member => List.mem_singleton.mp member ▸ rfl) lines

theorem flat_parts_shown (role : String) (parts : List Part) :
    (Piece.flat (parts.flatMap (Part.piece role))).countP shown =
      ((parts.filterMap Part.text?).map String.toList).flatten.countP (fun char => !Text.isSpace char) := by
  induction parts with
  | nil => rfl
  | cons part rest ih =>
    rw [List.flatMap_cons, Piece.flat_append, List.countP_append, ih]
    cases part with
    | text value =>
      rw [Part.piece, flat_texts, List.flatten_singleton, countP_shown]
      exact List.countP_append.symm
    | image_url value => exact Nat.zero_add _
    | other kind => exact Nat.zero_add _

theorem flat_content_shown (role : String) (content : Content) :
    (Piece.flat (content.pieces role)).countP shown =
      content.plain.toList.countP (fun char => !Text.isSpace char) := by
  cases content with
  | null => rfl
  | text whole => rw [Content.pieces, flat_texts, List.flatten_singleton, countP_shown, Content.plain]
  | parts items =>
    rw [Content.pieces, flat_parts_shown, Content.plain, joinTexts, String.toList_intercalate]
    exact (countP_lines _).symm

theorem flat_content_images (role : String) (content : Content) :
    (Piece.flat (content.pieces role)).countP isImage = content.images.length := by
  cases content with
  | null => rfl
  | text whole =>
    rw [Content.pieces, flat_texts]
    exact countP_chars (fun _ => rfl) _
  | parts items =>
    rw [Content.pieces, Content.images]
    induction items with
    | nil => rfl
    | cons part rest ih =>
      rw [List.flatMap_cons, Piece.flat_append, List.countP_append, ih]
      cases part with
      | text value =>
        rw [Part.piece, flat_texts, countP_chars (fun _ => rfl), Nat.zero_add]
        rfl
      | image_url value => exact Nat.add_comm _ _
      | other kind => exact Nat.zero_add _

theorem flat_content_calls (role : String) (content : Content) :
    (Piece.flat (content.pieces role)).countP isCall = 0 := by
  cases content with
  | null => rfl
  | text whole =>
    rw [Content.pieces, flat_texts]
    exact countP_chars (fun _ => rfl) _
  | parts items =>
    rw [Content.pieces]
    induction items with
    | nil => rfl
    | cons part rest ih =>
      rw [List.flatMap_cons, Piece.flat_append, List.countP_append, ih]
      cases part with
      | text value =>
        rw [Part.piece, flat_texts, countP_chars (fun _ => rfl)]
      | image_url value => rfl
      | other kind => rfl

def outPieces (message : Message) : Pieces := (itemsOf message).flatMap InputItem.pieces

/-- The message is an assistant message with tool calls. -/
abbrev Calling (message : Message) : Prop := message.role = "assistant" ∧ message.tool_calls ≠ []

def Message.held (message : Message) : Content := message.content.getD (.text "")

section OneMessage

variable {message : Message}

theorem outPieces_calling (fresh : message.output = []) (calling : Calling message) :
    outPieces message = (textItems message.held).flatMap InputItem.pieces ++ callPieces message.tool_calls := by
  have other : message.role ≠ "system" := by
    rw [calling.1]
    decide
  rw [outPieces, itemsOf, convertNext]
  dsimp only
  rw [if_neg (not_not.mpr fresh), if_neg other, if_pos calling, List.nil_append, List.flatMap_append,
    pieces_calls]
  rfl

theorem pieces_calling (calling : Calling message) :
    message.pieces = message.held.pieces "assistant" ++ callPieces message.tool_calls := by
  have other : message.role ≠ "system" ∧ message.role ≠ "tool" := by
    rw [calling.1]
    decide
  rw [Message.pieces, if_neg other.1, if_neg other.2, if_pos calling.1, calling.1]
  rfl

theorem pieces_textItems (content : Content) : (textItems content).flatMap InputItem.pieces =
    if Text.strip content.plain.toList = [] then []
    else [.text "assistant" content.plain.toList] := by
  unfold textItems
  split <;> rfl

/-- A message of no call, which is neither a system message nor a result. -/
def Speaking (message : Message) : Prop :=
  message.role ≠ "system" ∧ message.role ≠ "tool" ∧ ¬ Calling message

theorem pieces_speaking (speaking : Speaking message) :
    message.pieces = message.held.pieces message.role := by
  obtain ⟨system, tool, calling⟩ := speaking
  rw [Message.pieces, if_neg system, if_neg tool]
  have silent : (if message.role = "assistant" then callPieces message.tool_calls else []) = [] := by
    split
    · rename_i assistant
      have none_called : message.tool_calls = [] := by
        by_contra some_call
        exact calling ⟨assistant, some_call⟩
      rw [none_called]
      rfl
    · rfl
  rw [silent, List.append_nil]
  rfl

theorem outPieces_speaking (fresh : message.output = []) (speaking : Speaking message) :
    outPieces message = match message.held with
      | .null => [.text message.role "None".toList]
      | .text whole => [.text message.role whole.toList]
      | .parts items => (items.filterMap (convert_part
          (if message.role = "assistant" then "output_text" else "input_text"))).map
          (InputPart.piece message.role) := by
  obtain ⟨system, tool, calling⟩ := speaking
  rw [outPieces, itemsOf, convertNext]
  dsimp only
  rw [if_neg (not_not.mpr fresh), if_neg system, if_neg calling, if_neg tool, List.nil_append,
    List.flatMap_singleton, InputItem.pieces, Message.held]
  cases message.content.getD (.text "") <;> rfl

theorem outPieces_fixed (fresh : message.output = []) (calling : ¬ Calling message)
    (fixed : message.role = "system" ∨ message.role = "tool") : outPieces message = message.pieces := by
  rw [outPieces, itemsOf, convertNext]
  dsimp only
  rw [if_neg (not_not.mpr fresh)]
  rcases fixed with system | tool
  · rw [if_pos system, Message.pieces, if_pos system]
    cases message.content.getD (.text "") <;> rfl
  · have other : message.role ≠ "system" := by
      rw [tool]
      decide
    rw [if_neg other, if_neg calling, if_pos tool, Message.pieces, if_neg other, if_pos tool]
    rfl

theorem held_null : message.held = .null ↔ message.content = some .null := by
  unfold Message.held
  cases message.content with
  | none => simp
  | some content => simp

theorem pieces_of_texts (role : String) {content : Content} (plain : content.images = []) :
    content.pieces role = Piece.texts role (content.texts.map String.toList) := by
  cases content with
  | null => rfl
  | text whole => rfl
  | parts items =>
    rw [Content.images] at plain
    rw [Content.pieces, Content.texts]
    induction items with
    | nil => rfl
    | cons part rest ih =>
      cases part with
      | text value =>
        have kept : (Part.text value :: rest).filterMap Part.text? =
            value.getD "" :: rest.filterMap Part.text? := rfl
        rw [List.flatMap_cons, ih plain, Part.piece, kept, List.map_cons]
        unfold Piece.texts
        rw [← List.map_append, ← List.filter_append]
        rfl
      | image_url value => cases plain
      | other kind => exact ih plain

theorem plain_of_texts (content : Content) :
    content.plain.toList = ['\n'].intercalate (content.texts.map String.toList) := by
  cases content with
  | null => rfl
  | text whole => exact List.intercalate_singleton.symm
  | parts items => rw [Content.plain, joinTexts, String.toList_intercalate]; rfl

theorem blank_lines (lines : List (List Char)) :
    Text.blank (['\n'].intercalate lines) = lines.all Text.blank := by
  induction lines with
  | nil => rfl
  | cons line rest ih =>
    cases rest with
    | nil => simp
    | cons second others =>
      rw [List.intercalate_cons_cons, List.all_cons, ← ih]
      simp [Text.blank, Text.isSpace]

theorem strip_plain_iff (content : Content) : Text.strip content.plain.toList = [] ↔
    ∀ text ∈ content.texts, Text.blank text.toList = true := by
  rw [Text.strip_eq_nil, plain_of_texts, blank_lines, List.all_map, List.all_eq_true]
  rfl

theorem held_images (message : Message) : message.held.images = message.images := by
  unfold Message.held Message.images
  cases message.content <;> rfl

theorem held_texts (message : Message) {good : String → Prop} (empty : good "") :
    (∀ text ∈ message.held.texts, good text) ↔ ∀ text ∈ message.texts, good text := by
  unfold Message.held Message.texts
  cases message.content with
  | none => exact iff_of_true (by simpa [Content.texts] using empty) (by simp)
  | some content => exact Iff.rfl

theorem carriable_calling (calling : Calling message) : Carriable message ↔
    message.held.images = [] ∧ (Text.strip message.held.plain.toList = [] →
      ∀ text ∈ message.held.texts, text = "") := by
  have other : message.role ≠ "system" ∧ message.role ≠ "tool" := by
    rw [calling.1]
    decide
  have blanks : (∀ text ∈ message.held.texts, Text.blank text.toList = true) ↔
      ∀ text ∈ message.texts, Text.blank text.toList = true := held_texts message rfl
  have empties : (∀ text ∈ message.held.texts, text = "") ↔ ∀ text ∈ message.texts, text = "" :=
    held_texts message rfl
  rw [Carriable, imp_iff_right other.1, imp_iff_right other.2, if_pos calling, held_images,
    strip_plain_iff, blanks, empties]
  refine and_congr_right fun _ => ⟨?_, fun empty => ?_⟩
  · rintro (empty | ⟨text, member, visible⟩) blank
    · exact empty
    · rw [blank text member] at visible
      cases visible
  · by_cases blank : ∀ text ∈ message.texts, Text.blank text.toList = true
    · exact Or.inl (empty blank)
    · push Not at blank
      obtain ⟨text, member, visible⟩ := blank
      exact Or.inr ⟨text, member, Bool.eq_false_iff.mpr visible⟩

theorem carriable_speaking (speaking : Speaking message) :
    Carriable message ↔ message.held ≠ .null := by
  rw [Carriable, imp_iff_right speaking.1, imp_iff_right speaking.2.1, if_neg speaking.2.2, Ne, Ne, held_null]

theorem kinds (message : Message) : Calling message ∨ Speaking message ∨
    (¬ Calling message ∧ (message.role = "system" ∨ message.role = "tool")) := by
  unfold Speaking
  by_cases calling : Calling message
  · exact Or.inl calling
  · by_cases system : message.role = "system"
    · exact Or.inr (Or.inr ⟨calling, Or.inl system⟩)
    · by_cases tool : message.role = "tool"
      · exact Or.inr (Or.inr ⟨calling, Or.inr tool⟩)
      · exact Or.inr (Or.inl ⟨system, tool, calling⟩)

theorem carries_of_carriable (fresh : message.output = []) (carriable : Carriable message) :
    Piece.Carries message.pieces (outPieces message) := by
  rcases kinds message with calling | speaking | ⟨calling, fixed⟩
  · obtain ⟨images, kept⟩ := (carriable_calling calling).mp carriable
    rw [pieces_calling calling, outPieces_calling fresh calling, pieces_textItems, pieces_of_texts _ images]
    refine Piece.Carries.append ?_ (.refl _)
    split
    · rename_i blank
      have nothing : Piece.texts "assistant" (message.held.texts.map String.toList) = ([] : Pieces) := by
        rw [Piece.texts, List.map_eq_nil_iff, List.filter_eq_nil_iff]
        intro text member
        obtain ⟨held, inside, rfl⟩ := List.mem_map.mp member
        rw [kept blank held inside]
        simp
      rw [nothing]
      exact .done
    · rw [plain_of_texts]
      exact Piece.carries_lines _ _
  · have present := (carriable_speaking speaking).mp carriable
    rw [pieces_speaking speaking, outPieces_speaking fresh speaking]
    cases held : message.held with
    | null => exact absurd held present
    | text whole =>
      have lines := @Piece.carries_lines String Mark message.role [whole.toList]
      rwa [List.intercalate_singleton] at lines
    | parts items => exact carries_part _ _ items
  · rw [outPieces_fixed fresh calling fixed]
    exact .refl _

theorem flat_speaking (fresh : message.output = []) (speaking : Speaking message)
    (present : message.held ≠ .null) :
    Piece.flat message.pieces = Piece.flat (outPieces message) := by
  rw [pieces_speaking speaking, outPieces_speaking fresh speaking]
  cases held : message.held with
  | null => exact absurd held present
  | text whole =>
    rw [Content.pieces, flat_texts, List.flatten_singleton]
    exact (List.append_nil _).symm
  | parts items => exact flat_part _ _ items

theorem countP_calls {kind : Char ⊕ Mark → Bool} (calls : ∀ id name arguments,
    kind (.inr (.call id name arguments)) = false) (tool_calls : List ToolCall) :
    (Piece.flat (callPieces tool_calls)).countP kind = 0 := by
  rw [flat_calls, List.countP_eq_zero]
  intro token member
  obtain ⟨tool_call, _, rfl⟩ := List.mem_map.mp member
  rw [ToolCall.mark, calls]
  exact Bool.false_ne_true

def keptText (content : Content) : List (Char ⊕ Mark) :=
  if Text.strip content.plain.toList = [] then [] else content.plain.toList.map .inl

theorem flat_textItems (content : Content) :
    Piece.flat ((textItems content).flatMap InputItem.pieces) = keptText content := by
  rw [pieces_textItems, keptText]
  split
  · rfl
  · exact List.append_nil _

theorem keptText_shown (content : Content) : (keptText content).countP shown =
    content.plain.toList.countP (fun char => !Text.isSpace char) := by
  unfold keptText
  split
  · rename_i blank
    have space := Text.strip_eq_nil.mp blank
    rw [Text.blank, List.all_eq_true] at space
    exact (List.countP_eq_zero.mpr (fun char member => by simp [space char member])).symm
  · exact countP_shown _

theorem keptText_chars {kind : Char ⊕ Mark → Bool} (marks : ∀ char, kind (.inl char) = false)
    (content : Content) : (keptText content).countP kind = 0 := by
  unfold keptText
  split
  · rfl
  · exact countP_chars marks _

theorem message_counts (fresh : message.output = []) :
    (Piece.flat message.pieces).countP shown ≤ (Piece.flat (outPieces message)).countP shown ∧
      (Piece.flat (outPieces message)).countP isImage ≤ (Piece.flat message.pieces).countP isImage ∧
        (Piece.flat message.pieces).countP isCall = (Piece.flat (outPieces message)).countP isCall := by
  have of_same : Piece.flat message.pieces = Piece.flat (outPieces message) →
      (Piece.flat message.pieces).countP shown ≤ (Piece.flat (outPieces message)).countP shown ∧
      (Piece.flat (outPieces message)).countP isImage ≤ (Piece.flat message.pieces).countP isImage ∧
        (Piece.flat message.pieces).countP isCall = (Piece.flat (outPieces message)).countP isCall := by
    intro same
    rw [same]
    exact ⟨Nat.le_refl _, Nat.le_refl _, rfl⟩
  rcases kinds message with calling | speaking | ⟨calling, fixed⟩
  · rw [pieces_calling calling, outPieces_calling fresh calling, Piece.flat_append, Piece.flat_append,
      flat_textItems]
    simp only [List.countP_append]
    rw [flat_content_shown, keptText_shown, flat_content_images, keptText_chars (fun _ => rfl),
      flat_content_calls, keptText_chars (fun _ => rfl), countP_calls (fun _ _ _ => rfl)]
    omega
  · by_cases present : message.held = .null
    · rw [pieces_speaking speaking, outPieces_speaking fresh speaking, present]
      exact ⟨Nat.zero_le _, Nat.le_refl _, rfl⟩
    · exact of_same (flat_speaking fresh speaking present)
  · exact of_same (by rw [outPieces_fixed fresh calling fixed])

theorem carriable_of_counts (fresh : message.output = []) {later more : List (Char ⊕ Mark)}
    (same_shown : (Piece.flat message.pieces).countP shown = (Piece.flat (outPieces message)).countP shown)
    (same_images : (Piece.flat message.pieces).countP isImage =
      (Piece.flat (outPieces message)).countP isImage)
    (same_calls : later.countP isCall = more.countP isCall)
    (within : (Piece.flat message.pieces ++ later).Sublist (Piece.flat (outPieces message) ++ more)) :
    Carriable message ∧ later.Sublist more := by
  rcases kinds message with calling | speaking | ⟨calling, fixed⟩
  · rw [pieces_calling calling, outPieces_calling fresh calling, Piece.flat_append, Piece.flat_append,
      flat_textItems] at same_images within
    rw [List.countP_append, List.countP_append, flat_content_images, keptText_chars (fun _ => rfl),
      countP_calls (fun _ _ _ => rfl)] at same_images
    have images : message.held.images = [] := List.length_eq_zero_iff.mp (by omega)
    obtain ⟨first, others, called⟩ := List.exists_cons_of_ne_nil calling.2
    rw [called, flat_calls, List.map_cons, List.append_assoc, List.append_assoc] at within
    obtain ⟨inside, after⟩ := Piece.sublist_of_stop (flat_content_calls _ _)
      (keptText_chars (fun _ => rfl) _) rfl same_calls within
    refine ⟨(carriable_calling calling).mpr ⟨images, fun blank => ?_⟩, after⟩
    rw [keptText, if_pos blank, pieces_of_texts _ images, flat_texts, List.sublist_nil,
      List.map_eq_nil_iff, List.flatten_eq_nil_iff] at inside
    intro text member
    exact String.toList_eq_nil_iff.mp (inside _ (List.mem_map_of_mem member))
  · have present : message.held ≠ .null := by
      intro null
      rw [pieces_speaking speaking, outPieces_speaking fresh speaking, null] at same_shown
      have four : (Piece.flat [Piece.text message.role "None".toList] : List (Char ⊕ Mark)).countP shown =
          4 := rfl
      exact absurd (same_shown.trans four) (by simp [Content.pieces])
    rw [flat_speaking fresh speaking present] at within
    exact ⟨(carriable_speaking speaking).mpr present, (List.append_sublist_append_left _).mp within⟩
  · rw [outPieces_fixed fresh calling fixed] at within
    refine ⟨fun system tool => ?_, (List.append_sublist_append_left _).mp within⟩
    exact (fixed.elim system tool).elim

end OneMessage

section Run

variable {messages : List Message}

theorem run_counts (fresh : ∀ message ∈ messages, message.output = []) :
    (Piece.flat (messages.flatMap Message.pieces)).countP shown ≤
        (Piece.flat (messages.flatMap outPieces)).countP shown ∧
      (Piece.flat (messages.flatMap outPieces)).countP isImage ≤
        (Piece.flat (messages.flatMap Message.pieces)).countP isImage ∧
      (Piece.flat (messages.flatMap Message.pieces)).countP isCall =
        (Piece.flat (messages.flatMap outPieces)).countP isCall := by
  induction messages with
  | nil => exact ⟨Nat.le_refl _, Nat.le_refl _, rfl⟩
  | cons message rest ih =>
    obtain ⟨shown_rest, images_rest, calls_rest⟩ :=
      ih (fun other member => fresh other (List.mem_cons_of_mem _ member))
    obtain ⟨shown_first, images_first, calls_first⟩ := message_counts (fresh message List.mem_cons_self)
    simp only [List.flatMap_cons, Piece.flat_append, List.countP_append]
    omega

theorem carriable_of_run (fresh : ∀ message ∈ messages, message.output = [])
    (same_shown : (Piece.flat (messages.flatMap Message.pieces)).countP shown =
      (Piece.flat (messages.flatMap outPieces)).countP shown)
    (same_images : (Piece.flat (messages.flatMap Message.pieces)).countP isImage =
      (Piece.flat (messages.flatMap outPieces)).countP isImage)
    (within : (Piece.flat (messages.flatMap Message.pieces)).Sublist
      (Piece.flat (messages.flatMap outPieces))) : ∀ message ∈ messages, Carriable message := by
  induction messages with
  | nil => simp
  | cons message rest ih =>
    have fresh_rest : ∀ other ∈ rest, other.output = [] :=
      fun other member => fresh other (List.mem_cons_of_mem _ member)
    obtain ⟨shown_rest, images_rest, calls_rest⟩ := run_counts fresh_rest
    obtain ⟨shown_first, images_first, _⟩ := message_counts (fresh message List.mem_cons_self)
    simp only [List.flatMap_cons, Piece.flat_append, List.countP_append] at same_shown same_images within
    obtain ⟨first, later⟩ := carriable_of_counts (fresh message List.mem_cons_self) (by omega) (by omega)
      calls_rest within
    exact List.forall_mem_cons.mpr ⟨first, ih fresh_rest (by omega) (by omega) later⟩

theorem input_iff (fresh : ∀ message ∈ messages, message.output = []) :
    Piece.Carries (messages.flatMap Message.pieces) (messages.flatMap outPieces) ↔
      ∀ message ∈ messages, Carriable message := by
  constructor
  · intro carries
    exact carriable_of_run fresh (carries.countP rfl) (carries.countP rfl) carries.sublist
  · intro carriable
    exact Piece.Carries.flatMap (fun message member =>
      carries_of_carriable (fresh message member) (carriable message member))

end Run

/-- The converted payload keeps the conversation exactly when no system text is replaced by a later
one and every other message has the shape that its branch carries. -/
theorem keeps_conversation_iff (payload : ChatPayload)
    (fresh : ∀ message ∈ payload.messages, message.output = []) :
    KeepsConversation payload.messages (convert_to_responses_payload payload) ↔
      LastSystem payload.messages ∧ ∀ message ∈ payload.messages, Carriable message := by
  have system := foldl_system fresh ⟨"", []⟩
  have items := foldl_items payload.messages ⟨"", []⟩
  have instructions : (convert_to_responses_payload payload).instructions.getD "" =
      instructionsOf "" payload.messages := by
    rw [convert_to_responses_payload]
    dsimp only
    rw [system]
    split
    · rename_i empty
      exact empty.symm
    · rfl
  have input : (convert_to_responses_payload payload).input.flatMap InputItem.pieces =
      payload.messages.flatMap outPieces := by
    rw [convert_to_responses_payload]
    dsimp only
    rw [items, List.nil_append, List.flatMap_assoc]
    rfl
  rw [← instructions_iff, ← input_iff fresh, ← instructions, ← input]
  exact ⟨fun keeps => ⟨keeps.instructions, keeps.input⟩, fun both => ⟨both.1, both.2⟩⟩

def calledChat : ChatPayload where
  messages := [{ role := "system", content := some (.text "Be brief.") },
    { role := "user", content := some (.parts [.text (some "What is it?"), .image_url (some "https://a/b")]) },
    { role := "assistant", content := some .null, tool_calls := [⟨none, some "c", some "look", some "[]"⟩] },
    { role := "tool", content := some (.text "A dot."), tool_call_id := some "c" }]
  params := []

theorem calledChat_kept :
    KeepsConversation calledChat.messages (convert_to_responses_payload calledChat) := by
  refine (keeps_conversation_iff calledChat (by simp [calledChat])).mpr ⟨?_, ?_⟩
  · refine lastSystem_cons.mpr ⟨?_, (silent_texts ?_ "").2.2⟩
    · intro _ instructed
      revert instructed
      decide
    · decide
  · simp only [calledChat, List.forall_mem_cons]
    refine ⟨?_, ?_, ?_, ?_, by simp⟩
    · intro system
      exact absurd rfl system
    · intro _ _
      simp
    · intro _ _
      simp [Message.images, Message.texts, Content.images, Content.texts]
    · intro _ tool
      exact absurd rfl tool

/-- The first of two system messages is lost. -/
theorem first_system_lost : ¬ KeepsConversation
    [{ role := "system", content := some (.text "Be brief.") },
      { role := "system", content := some (.text "Be kind.") }]
    (convert_to_responses_payload ⟨[{ role := "system", content := some (.text "Be brief.") },
      { role := "system", content := some (.text "Be kind.") }], []⟩) := by
  intro keeps
  have within := keeps.instructions.sublist.length_le
  revert within
  decide

end OpenWebui.Completions
