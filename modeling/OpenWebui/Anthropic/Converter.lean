import Mathlib.Algebra.Order.Ring.Unbundled.Rat
import OpenWebui.Anthropic.Events
import OpenWebui.Base.Text
import OpenWebui.Base.Triple
import OpenWebui.Utils.Usage

/-! `openai_stream_to_anthropic_stream`: the events that are made of the lines of a stream of
chat completion chunks. What raises while a line is read ends the reading; what has been begun is
then closed. -/

namespace OpenWebui.Anthropic

open Utils (asNumber)

/-- What a decoder of JSON may raise: what it says of a text that is no JSON, another error about
the text's value, or anything else. -/
inductive LoadError where
  | jsonDecodeError
  | valueError
  | other

/-- What the converter is called with, and takes from the interpreter. -/
structure Runtime where
  loads : String → Except LoadError Json
  model : String
  input_tokens : Json
  message_id : String
  /-- `toolu_` and a new id, where there are calls with these ids already. -/
  fallback_id : List Json → String

structure Tool where
  id : Json
  name : Json
  arguments : String
  block_index : Int
  started : Bool
  stopped : Bool

/-- What the converter remembers, and the events it has yielded. -/
structure State where
  input_tokens : Json
  output_tokens : Json := .num 0
  cache_creation_input_tokens : Json := .null
  cache_read_input_tokens : Json := .null
  output_tokens_details : Json := .null
  server_tool_use : Json := .null
  service_tier : Json := .null
  stop_reason : String := "end_turn"
  current_block_index : Nat := 0
  thinking_block_open : Bool := false
  text_block_open : Bool := false
  tracked_tool_calls : Dict Json Tool := Dict.empty
  index_to_tool_id : Dict Json Json := Dict.empty
  has_tool_calls : Bool := false
  yielded : List Event := []

namespace State

def yield (state : State) (event : Event) : State :=
  { state with yielded := state.yielded ++ [event] }

def closeThinking (state : State) : State :=
  if state.thinking_block_open then
    { state.yield (.content_block_stop state.current_block_index) with
      thinking_block_open := false
      current_block_index := state.current_block_index + 1 }
  else state

def closeText (state : State) : State :=
  if state.text_block_open then
    { state.yield (.content_block_stop state.current_block_index) with
      text_block_open := false
      current_block_index := state.current_block_index + 1 }
  else state

def think (state : State) (reasoning_content : Json) : State :=
  let opened :=
    if state.thinking_block_open then state
    else { state.yield (.content_block_start state.current_block_index .thinking) with
      thinking_block_open := true }
  opened.yield (.content_block_delta opened.current_block_index (.thinking_delta reasoning_content))

def write (state : State) (content : Json) : State :=
  let closed := state.closeThinking
  let opened :=
    if closed.text_block_open then closed
    else { closed.yield (.content_block_start closed.current_block_index .text) with
      text_block_open := true }
  opened.yield (.content_block_delta opened.current_block_index (.text_delta content))

def changeTool (state : State) (key : Json) (change : Tool → Tool) : State :=
  { state with tracked_tool_calls := state.tracked_tool_calls.modify key change }

def startTool (state : State) (key : Json) (tool : Tool) : State :=
  let marked := state.changeTool key (fun tool =>
    { tool with block_index := state.current_block_index, started := true })
  { marked.yield (.content_block_start state.current_block_index (.tool_use tool.id tool.name)) with
    current_block_index := state.current_block_index + 1 }

end State

def asKey : Json → Except PyError Json
  | .bool value => .ok (.num (if value then 1 else 0))
  | .arr _ | .obj _ => .error .typeError
  | value => .ok value

/-- `value.get(key, default)`. -/
def getOf (value : Json) (key : String) (default : Json) : Except PyError Json :=
  match value with
  | .obj fields => .ok (getFieldD fields key default)
  | _ => .error .attributeError

/-- `first.get(key) or second.get(key) or …`. -/
def firstOf : List (Json × String) → Except PyError Json
  | [] => .ok .null
  | [(value, key)] => getOf value key .null
  | (value, key) :: rest => do
    let found ← getOf value key .null
    if found.truthy then .ok found else firstOf rest

/-- `choices[0]`. -/
def firstChoice : Json → Except PyError Json
  | .arr (choice :: _) => .ok choice
  | .arr [] => .error .indexError
  | .str text =>
    match text.toList with
    | [] => .error .indexError
    | char :: _ => .ok (.str (String.singleton char))
  | .obj _ => .error .keyError
  | _ => .error .typeError

/-- `first - second`. -/
def pySub (first second : Json) : Except PyError Json :=
  match asNumber first, asNumber second with
  | some a, some b => .ok (.num (a - b))
  | _, _ => .error .typeError

/-- `max(value, 0)`. -/
def maxZero : Json → Json
  | .num value => .num (max value 0)
  | value => value

abbrev Converter (α : Type) := Program PyError State α

/-- `usage_input`: the input tokens that are reported, or made of those of the prompt. -/
def usageInput (usage_data : Fields) (cache_creation cache_read : Json) : Except PyError Json :=
  match getField usage_data "input_tokens", getField usage_data "prompt_tokens" with
  | .null, .null => .ok .null
  | .null, prompt_tokens => do
    let uncreated ← pySub prompt_tokens (cache_creation.orElse (.num 0))
    let unread ← pySub uncreated (cache_read.orElse (.num 0))
    .ok (maxZero unread)
  | usage_input, _ => .ok usage_input

def readUsage (usage_data : Fields) : Converter Unit := do
  let cache_creation := getField usage_data "cache_creation_input_tokens"
  let cache_read :=
    match getField usage_data "cache_read_input_tokens",
      getField usage_data "prompt_tokens_details" with
    | .null, .obj prompt_details => getField prompt_details "cached_tokens"
    | cache_read, _ => cache_read
  let usage_input ← Program.ofExcept (usageInput usage_data cache_creation cache_read)
  let usage_output :=
    match getField usage_data "output_tokens" with
    | .null => getField usage_data "completion_tokens"
    | usage_output => usage_output
  let replace := fun (old new : Json) => if new = .null then old else new
  let replaceObject := fun (old new : Json) => if new.obj?.isSome then new else old
  Program.modify (fun state => { state with
    input_tokens := replace state.input_tokens usage_input
    output_tokens := replace state.output_tokens usage_output
    cache_creation_input_tokens := replace state.cache_creation_input_tokens cache_creation
    cache_read_input_tokens := replace state.cache_read_input_tokens cache_read
    output_tokens_details :=
      replaceObject state.output_tokens_details (getField usage_data "output_tokens_details")
    server_tool_use := replaceObject state.server_tool_use (getField usage_data "server_tool_use")
    service_tier := replace state.service_tier (getField usage_data "service_tier") })

def thinkingOf : List Json → Json → Json
  | [], found => found
  | .obj block :: rest, _ =>
    let found := ((getField block "thinking").orElse (getField block "content")).orElse
      (getField block "text")
    if found.truthy then found else thinkingOf rest found
  | _ :: rest, found => thinkingOf rest found

def reasoningOf (delta message : Json) : Except PyError Json := do
  let reasoning_content ← firstOf [(delta, "reasoning_content"), (delta, "reasoning"),
    (delta, "thinking"), (message, "reasoning_content"), (message, "reasoning")]
  if reasoning_content.truthy then .ok reasoning_content
  else
    let thinking_blocks ← firstOf [(delta, "thinking_blocks"), (message, "thinking_blocks")]
    let blocks ← (thinking_blocks.orElse (.arr [])).iterate
    .ok (thinkingOf blocks reasoning_content)

def toolCallsOf (delta message : Json) : Except PyError Json := do
  let tool_calls ← getOf delta "tool_calls" .null
  if tool_calls.truthy then .ok tool_calls
  else
    let final ← getOf message "tool_calls" .null
    .ok (if final.truthy then final else .arr [])

def track (key id name : Json) : Converter Unit :=
  Program.modify (fun state => { state with
    tracked_tool_calls := state.tracked_tool_calls.set key
      { id, name, arguments := "", block_index := -1, started := false, stopped := false } })

/-- `index_to_tool_id[tool_call_index] = tool_call_id`. -/
def route (tool_call_index tool_call_id : Json) : Converter Unit := do
  let index ← Program.ofExcept (asKey tool_call_index)
  Program.modify (fun state => { state with
    index_to_tool_id := state.index_to_tool_id.set index tool_call_id })

def resolve (runtime : Runtime) (tool_call_index tool_call_id tool_call_name : Json) :
    Converter Json :=
  if tool_call_id.truthy then do
    let key ← Program.ofExcept (asKey tool_call_id)
    let state ← Program.get
    Program.onlyIf (state.tracked_tool_calls.get? key).isNone (track key tool_call_id tool_call_name)
    route tool_call_index tool_call_id
    pure key
  else do
    let index ← Program.ofExcept (asKey tool_call_index)
    let state ← Program.get
    match state.index_to_tool_id.get? index with
    | some known_id => Program.ofExcept (asKey known_id)
    | none =>
      let fallback_id := Json.str (runtime.fallback_id state.tracked_tool_calls.keys)
      track fallback_id fallback_id tool_call_name
      route tool_call_index fallback_id
      pure fallback_id

/-- `tracked_tool_calls[key]`. -/
def toolOf (key : Json) : Converter Tool := do
  let state ← Program.get
  match state.tracked_tool_calls.get? key with
  | some tool => pure tool
  | none => Program.raise .keyError

def stopTool (runtime : Runtime) (key : Json) (tool : Tool) : Converter Unit :=
  match runtime.loads tool.arguments with
  | .ok _ => Program.modify (fun state =>
    (state.changeTool key (fun tool => { tool with stopped := true })).yield
      (.content_block_stop tool.block_index))
  | .error .jsonDecodeError | .error .valueError => pure ()
  | .error .other => Program.raise .valueError

def takeArguments (runtime : Runtime) (key arguments_chunk : Json) : Converter Unit :=
  match arguments_chunk with
  | .str chunk => do
    Program.modify (fun state => state.changeTool key (fun tool =>
      { tool with arguments := tool.arguments ++ chunk }))
    let tool ← toolOf key
    Program.onlyIf (tool.started && !tool.stopped) (do
      Program.modify (fun state => state.yield
        (.content_block_delta tool.block_index (.input_json_delta chunk)))
      stopTool runtime key tool)
  | _ => Program.raise .typeError

def readToolCall (runtime : Runtime) (tool_call : Json) : Converter Unit := do
  let tool_call_index ← Program.ofExcept (getOf tool_call "index" (.num 0))
  let tool_call_id ← Program.ofExcept (getOf tool_call "id" (.str ""))
  let function ← Program.ofExcept (getOf tool_call "function" .null)
  let tool_call_name ← Program.ofExcept (getOf (function.orElse (.obj [])) "name" (.str ""))
  let arguments_chunk ← Program.ofExcept (getOf (function.orElse (.obj [])) "arguments" (.str ""))
  let key ← resolve runtime tool_call_index tool_call_id tool_call_name
  let tool ← toolOf key
  Program.onlyIf (tool_call_name.truthy && !tool.name.truthy)
    (Program.modify (fun state => state.changeTool key (fun tool =>
      { tool with name := tool_call_name })))
  let tool ← toolOf key
  Program.onlyIf (!tool.started && tool.name.truthy)
    (Program.modify (fun state => { state.startTool key tool with has_tool_calls := true }))
  Program.onlyIf arguments_chunk.truthy (takeArguments runtime key arguments_chunk)

/-- `stop_reason_map.get(finish_reason, 'end_turn')`. -/
def stopReason (finish_reason : Json) : Except PyError String := do
  let key ← asKey finish_reason
  .ok (match key with
    | .str "length" => "max_tokens"
    | .str "tool_calls" => "tool_use"
    | _ => "end_turn")

def State.takeReasoning (reasoning_content : Json) (state : State) : State :=
  if reasoning_content.truthy && !state.text_block_open && !state.has_tool_calls then
    state.think reasoning_content
  else state

def State.takeContent (content : Json) (state : State) : State :=
  if content.truthy && !state.has_tool_calls then state.write content else state

def readToolCalls (runtime : Runtime) (tool_calls : Json) : Converter Unit :=
  Program.onlyIf tool_calls.truthy (do
    Program.modify (fun state => state.closeThinking.closeText)
    let items ← Program.ofExcept tool_calls.iterate
    Program.each (readToolCall runtime) items)

def readFinishReason (finish_reason : Json) : Converter Unit :=
  Program.onlyIf (decide (finish_reason ≠ .null)) (do
    let stop_reason ← Program.ofExcept (stopReason finish_reason)
    Program.modify (fun state => { state with stop_reason }))

def readChoice (runtime : Runtime) (choice : Json) : Converter Unit := do
  let delta ← Program.ofExcept (getOf choice "delta" (.obj []))
  let finish_reason ← Program.ofExcept (getOf choice "finish_reason" .null)
  let given_message ← Program.ofExcept (getOf choice "message" .null)
  let message := given_message.orElse (.obj [])
  let reasoning_content ← Program.ofExcept (reasoningOf delta message)
  Program.modify (State.takeReasoning reasoning_content)
  let content ← Program.ofExcept (getOf delta "content" .null)
  Program.modify (State.takeContent content)
  let tool_calls ← Program.ofExcept (toolCallsOf delta message)
  readToolCalls runtime tool_calls
  readFinishReason finish_reason

def readUsageData : Json → Converter Unit
  | .obj usage_data => readUsage usage_data
  | _ => pure ()

def readData (runtime : Runtime) (data : Json) : Converter Unit := do
  let usage_data ← Program.ofExcept (getOf data "usage" .null)
  readUsageData usage_data
  let choices ← Program.ofExcept (getOf data "choices" (.arr []))
  Program.onlyIf choices.truthy (do
    let choice ← Program.ofExcept (firstChoice choices)
    readChoice runtime choice)

def readLine (runtime : Runtime) (line : List Char) : Converter Unit :=
  let line := Text.strip line
  if !"data:".toList.isPrefixOf line then pure ()
  else
    let data_string := String.ofList (Text.strip (line.drop 5))
    if data_string = "[DONE]" ∨ data_string = "\x7b\x7d" then pure ()
    else
      match runtime.loads data_string with
      | .ok data => readData runtime data
      | .error .jsonDecodeError => pure ()
      | .error _ => Program.raise .valueError

/-- What the source hands on next: a text, or something that raises, be it the source itself. -/
inductive Chunk where
  | text (chunk : List Char)
  | raises (error : PyError)

def readChunk (runtime : Runtime) : Chunk → Converter Unit
  | .text chunk => Program.each (readLine runtime) (Text.split '\n' (Text.strip chunk))
  | .raises error => Program.raise error

namespace State

def flushTool (state : State) (key : Json) : State :=
  match state.tracked_tool_calls.get? key with
  | none => state
  | some tool =>
    if !tool.started && tool.name.truthy then
      let started := state.startTool key tool
      if tool.arguments ≠ "" then
        started.yield (.content_block_delta state.current_block_index
          (.input_json_delta tool.arguments))
      else started
    else state

def closeTool (state : State) (tool : Tool) : State :=
  if tool.started && !tool.stopped then state.yield (.content_block_stop tool.block_index)
  else state

def endText (state : State) : State :=
  if state.text_block_open then state.yield (.content_block_stop state.current_block_index)
  else state

def usage (state : State) : Fields :=
  [("output_tokens", state.output_tokens), ("input_tokens", state.input_tokens),
    ("cache_creation_input_tokens", state.cache_creation_input_tokens),
    ("cache_read_input_tokens", state.cache_read_input_tokens),
    ("output_tokens_details", state.output_tokens_details),
    ("server_tool_use", state.server_tool_use),
    ("service_tier", state.service_tier)].filter (fun field =>
      decide (field.1 = "output_tokens" ∨ field.2 ≠ .null))

def finish (state : State) : State :=
  let thought := state.closeThinking
  let flushed := thought.tracked_tool_calls.keys.foldl flushTool thought
  let written := flushed.endText
  let closed := (written.tracked_tool_calls.entries.map Prod.snd).foldl closeTool written
  (closed.yield (.message_delta closed.stop_reason closed.usage)).yield .message_stop

end State

def start (runtime : Runtime) : State where
  input_tokens := runtime.input_tokens
  yielded := [.message_start runtime.message_id runtime.model
    (runtime.input_tokens.orElse (.num 0))]

def openai_stream_to_anthropic_stream (runtime : Runtime) (openai_stream_generator : List Chunk) :
    List Event :=
  (Program.each (readChunk runtime) openai_stream_generator (start runtime)).2.finish.yielded

end OpenWebui.Anthropic
