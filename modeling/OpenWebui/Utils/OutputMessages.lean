import OpenWebui.Base.Json
import OpenWebui.Base.Text

/-! `convert_output_to_messages` and `reconcile_tool_pairs`: output items become the messages of a
conversation. -/

namespace OpenWebui.OutputMessages

/-- What stands under `call_id`: an id, or `None`. -/
abbrev CallId := Option (List Char)

structure Part where
  type : List Char
  text : Option (List Char) := none

/-- A part of the output of a tool; its text may be any value. -/
structure OutputPart where
  type : List Char
  text : Option Json := none
  image_url : List Char := []

/-- The output of executed code: a dictionary, or any other value. -/
inductive CodeOutput where
  | dict (stdout result : List Char)
  | value (value : Json)

/-- An output item. A `none` is a key that the item does not have. -/
inductive Item where
  | message (content : List Part)
  | function_call (call_id : Option CallId) (name : List Char) (arguments : Option Json)
  | function_call_output (call_id : Option CallId) (output : List OutputPart)
  | reasoning (reasoning_details : Json) (summary content : List Part) (start_tag end_tag :
      Option (List Char))
  | code_interpreter (code : List Char) (output : Option CodeOutput)
  /-- Any other type, one that begins with `open_webui:` or not. -/
  | other (type : List Char)

structure ToolCall where
  id : CallId
  name : List Char
  arguments : List Char

inductive ToolContent where
  | text (content : List Char)
  | parts (text : List Char) (image_urls : List (List Char))

inductive Message where
  | assistant (content : List Char) (tool_calls : Option (List ToolCall))
      (reasoning_content : Option (List Char)) (reasoning_details : Option (List Json))
  | tool (tool_call_id : CallId) (content : ToolContent)
  /-- The images of tools, for the providers that take them from a user only. -/
  | user (image_urls : List (List Char))

structure Options where
  raw : Bool := false
  reasoning_format : Option (List Char) := none
  flatten_tool_images : Bool := false

/-- `json.dumps` and `str`, for the values that are no text. -/
structure Rendering where
  dumps : Json → List Char
  str : Json → List Char

def CallId.given : CallId → Bool
  | some id => !id.isEmpty
  | none => false

section Reconcile

/-- `completed_tool_call_ids`. -/
def completed (messages : List Message) : List CallId :=
  messages.filterMap (fun
    | .tool tool_call_id _ => if tool_call_id.given then some tool_call_id else none
    | _ => none)

/-- `message.get('tool_calls') or ()`, of an assistant message. -/
def callsOf : Message → List ToolCall
  | .assistant _ tool_calls _ _ => tool_calls.getD []
  | _ => []

/-- `requested_tool_call_ids`. -/
def requested (messages : List Message) : List CallId :=
  messages.flatMap (fun message => ((callsOf message).map ToolCall.id).filter CallId.given)

def reconcileOne (completed requested : List CallId) : Message → Option Message
  | .tool tool_call_id content =>
    if tool_call_id ∈ requested then some (.tool tool_call_id content) else none
  | .user image_urls => some (.user image_urls)
  | .assistant content tool_calls reasoning_content reasoning_details =>
    let calls := tool_calls.getD []
    if calls.isEmpty then some (.assistant content tool_calls reasoning_content reasoning_details)
    else
      let valid_tool_calls := calls.filter (fun call => decide (call.id ∈ completed))
      if !valid_tool_calls.isEmpty then
        some (.assistant content (some valid_tool_calls) reasoning_content reasoning_details)
      else if !Text.blank content || reasoning_content.any (fun text => !text.isEmpty) then
        some (.assistant content none reasoning_content reasoning_details)
      else none

def reconcile_tool_pairs (messages : List Message) : List Message :=
  messages.filterMap (reconcileOne (completed messages) (requested messages))

end Reconcile

section Convert

variable (rendering : Rendering) (options : Options)

/-- The messages so far, and what waits for the next one. -/
structure Pending where
  messages : List Message := []
  tool_calls : List ToolCall := []
  content : List (List Char) := []
  reasoning : List (List Char) := []
  reasoning_details : List Json := []
  tool_image_urls : List (List Char) := []

/-- `'\n'.join(texts)`. -/
def join (texts : List (List Char)) : List Char := List.intercalate ['\n'] texts

def filled {α : Type} (items : List α) : Option (List α) := if items.isEmpty then none else some items

def Pending.flush_pending (pending : Pending) : Pending :=
  if pending.content.isEmpty && pending.tool_calls.isEmpty && pending.reasoning.isEmpty &&
      pending.reasoning_details.isEmpty then pending
  else
    { pending with
      messages := pending.messages ++ [.assistant (join pending.content) (filled pending.tool_calls)
        ((filled pending.reasoning).map join) (filled pending.reasoning_details)]
      tool_calls := []
      content := []
      reasoning := []
      reasoning_details := [] }

def Pending.flush_tool_images (pending : Pending) : Pending :=
  if pending.tool_image_urls.isEmpty then pending
  else
    { pending with
      messages := pending.messages ++ [.user pending.tool_image_urls]
      tool_image_urls := [] }

def textOf (content : List Part) : List Char :=
  content.flatMap (fun part =>
    if part.type = "output_text".toList then part.text.getD [] else [])

def reasoningText (summary content : List Part) : List Char :=
  (if summary.isEmpty then content else summary).flatMap (fun part => part.text.getD [])

def outputText (output : List OutputPart) : List Char :=
  output.flatMap (fun part =>
    if part.type = "input_text".toList then
      match part.text.getD (.str "") with
      | .str text => text.toList
      | value => rendering.str value
    else [])

def imageUrls (output : List OutputPart) : List (List Char) :=
  output.filterMap (fun part =>
    if part.type = "input_image".toList ∧ part.image_url ≠ [] then some part.image_url else none)

def codeOutput : Option CodeOutput → List Char
  | none => []
  | some (.dict stdout result) => if stdout.isEmpty then result else stdout
  | some (.value value) =>
    match value with
    | .str text => text.toList
    | value => if value.truthy then rendering.str value else []

def piecesOf : Item → List (List Char)
  | .message content => (filled (textOf content)).toList
  | .reasoning _ summary content start_tag end_tag =>
    let reasoning_text := reasoningText summary content
    if options.reasoning_format = some "think_tags".toList ∧ reasoning_text ≠ [] then
      [start_tag.getD "<think>".toList ++ reasoning_text ++ end_tag.getD "</think>".toList]
    else []
  | .code_interpreter code output =>
    let output_text := codeOutput rendering output
    (if code.isEmpty then []
      else ["<code_interpreter>\n".toList ++ code ++ "\n</code_interpreter>".toList]) ++
    (if output_text.isEmpty then []
      else ["<code_interpreter_output>\n".toList ++ output_text ++
        "\n</code_interpreter_output>".toList])
  | _ => []

/-- `arguments`, as a text. -/
def argumentsOf : Option Json → List Char
  | none => "\x7b\x7d".toList
  | some (.str arguments) => arguments.toList
  | some arguments => rendering.dumps arguments

def detailsOf (reasoning_details : Json) : List Json :=
  match reasoning_details with
  | .arr details => details
  | details => if details.truthy then [details] else []

def toolMessage (tool_call_id : CallId) (output : List OutputPart) : Message :=
  if !options.flatten_tool_images && !(imageUrls output).isEmpty then
    .tool tool_call_id (.parts (outputText rendering output) (imageUrls output))
  else .tool tool_call_id (.text (outputText rendering output))

def takeItem (function_call_ids : List CallId) (before : Pending) (item : Item) : Pending :=
  match item with
  | .function_call_output call_id output =>
    let flushed := before.flush_pending
    { flushed with
      messages := flushed.messages ++ [toolMessage rendering options (call_id.getD (some [])) output]
      tool_image_urls :=
        if options.flatten_tool_images && decide (call_id.getD none ∈ function_call_ids) then
          flushed.tool_image_urls ++ imageUrls output
        else flushed.tool_image_urls }
  | .message _ | .code_interpreter _ _ =>
    let pending := before.flush_tool_images
    { pending with content := pending.content ++ piecesOf rendering options item }
  | .function_call call_id name arguments =>
    let pending := before.flush_tool_images
    { pending with
      tool_calls := pending.tool_calls ++
        [⟨call_id.getD (some []), name, argumentsOf rendering arguments⟩] }
  | .reasoning reasoning_details summary content _ _ =>
    let pending := before.flush_tool_images
    let reasoning_details := if options.raw then reasoning_details else .null
    if (options.reasoning_format.getD []).isEmpty && !reasoning_details.truthy then pending
    else
      let reasoning_text := reasoningText summary content
      { pending with
        content := pending.content ++ piecesOf rendering options item
        reasoning :=
          if options.reasoning_format = some "reasoning_content".toList ∧ reasoning_text ≠ [] then
            pending.reasoning ++ [reasoning_text]
          else pending.reasoning
        reasoning_details := pending.reasoning_details ++ detailsOf reasoning_details }
  | .other _ => before.flush_tool_images

/-- `function_call_ids`. -/
def functionCallIds (output : List Item) : List CallId :=
  output.filterMap (fun
    | .function_call call_id _ _ =>
      if (call_id.getD none).given then some (call_id.getD none) else none
    | _ => none)

def collected (output : List Item) : List Message :=
  (output.foldl (takeItem rendering options (functionCallIds output))
    {}).flush_tool_images.flush_pending.messages

def convert_output_to_messages (output : List Item) : List Message :=
  reconcile_tool_pairs (collected rendering options output)

end Convert

end OpenWebui.OutputMessages
