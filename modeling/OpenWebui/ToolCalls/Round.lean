import OpenWebui.Base.Text

/-! The values that tool calls and tools hand to the tool loop: what a text of arguments can stand
for, and whatever a tool returns. -/

namespace OpenWebui.ToolCalls

/-- A value of the interpreter. A number has its text; `other` is any value that the loop does not
look into. -/
inductive PyValue where
  | none
  | bool (value : Bool)
  | num (text : String)
  | str (text : String)
  | list (items : List PyValue)
  | tuple (items : List PyValue)
  | dict (items : List (PyValue × PyValue))
  | html (content_disposition body : String) (status_code : Int)
  | other (text : String)
  deriving Inhabited

inductive Loaded where
  | value (value : PyValue)
  | decodeError
  | raises (error : PyError)

/-- What the loop takes from the interpreter and from the rest of the program: the parsers, the
texts of values, the conversion of headers, the files that media are stored as, and new ids. -/
structure Runtime where
  loads : String → Loaded
  literal_eval : String → Except PyError PyValue
  rendered : PyValue → String
  indented : PyValue → String
  str : PyValue → Except PyError String
  toDict : PyValue → Except PyError (List (PyValue × PyValue))
  get_file_url_from_base64 : String → Except PyError (Option String)
  output_id : String → Nat → String

namespace PyValue

/-- `bool(value)`. -/
def truthy : PyValue → Bool
  | .none => false
  | .bool value => value
  | .num text => !(["0", "0.0", "-0.0"].contains text)
  | .str text => !(text == "")
  | .list items => !items.isEmpty
  | .tuple items => !items.isEmpty
  | .dict items => !items.isEmpty
  | .html .. => true
  | .other _ => true

def isStr (value : PyValue) (text : String) : Bool :=
  match value with
  | .str given => decide (given = text)
  | _ => false

/-- `value.get(key, default)` of a dict. -/
def get (items : List (PyValue × PyValue)) (key : String) (default : PyValue) : PyValue :=
  ((items.find? (fun item => item.1.isStr key)).map Prod.snd).getD default

def empty : PyValue := .str ""

/-- `needle in text`. -/
def within (needle : List Char) : List Char → Bool
  | [] => needle.isEmpty
  | char :: rest => needle.isPrefixOf (char :: rest) || within needle rest

/-- `needle in value`. -/
def contains (value : PyValue) (needle : String) : Except PyError Bool :=
  match value with
  | .str text => .ok (within needle.toList text.toList)
  | .list items => .ok (items.any (fun item => item.isStr needle))
  | .tuple items => .ok (items.any (fun item => item.isStr needle))
  | .dict items => .ok (items.any (fun item => item.1.isStr needle))
  | _ => .error .typeError

/-- A value that `json.dumps` takes as a key. -/
def keyable : PyValue → Bool
  | .none | .bool _ | .num _ | .str _ => true
  | _ => false

mutual

/-- A value that `json.dumps` takes. -/
def dumpable : PyValue → Bool
  | .none | .bool _ | .num _ | .str _ => true
  | .list items => allDumpable items
  | .tuple items => allDumpable items
  | .dict items => allItems items
  | .html .. | .other _ => false

def allDumpable : List PyValue → Bool
  | [] => true
  | value :: rest => value.dumpable && allDumpable rest

def allItems : List (PyValue × PyValue) → Bool
  | [] => true
  | (key, value) :: rest => key.keyable && value.dumpable && allItems rest

end

end PyValue

section Text

variable (runtime : Runtime)

/-- `json.dumps(value)`. -/
def dumps (value : PyValue) : Except PyError String :=
  if value.dumpable then .ok (runtime.rendered value) else .error .typeError

/-- `json.dumps(value, indent=2, ensure_ascii=False)`. -/
def dumpsIndented (value : PyValue) : Except PyError String :=
  if value.dumpable then .ok (runtime.indented value) else .error .typeError

/-- `str(value)`. -/
def text : PyValue → Except PyError String
  | .str text => .ok text
  | value => runtime.str value

def decoded : PyValue → Except PyError PyValue
  | .str text =>
    match runtime.loads text with
    | .value value => .ok value
    | .decodeError => .ok (.str text)
    | .raises error => .error error
  | value => .ok value

end Text

open PyValue

/-- A file beside the text: a stored medium, or data as it is. -/
inductive ToolFile where
  | media (kind : String) (url : Option String)
  | data (content : String)
  deriving DecidableEq

/-- What is left of a result after a step, and the embeds. -/
structure Unpacked where
  result : PyValue
  embeds : List PyValue

def startsWith (text start : String) : Bool := start.toList.isPrefixOf text.toList

def embedded (status message : String) : PyValue :=
  .dict [(.str "status", .str status), (.str "code", .str "ui_component"),
    (.str "message", .str message)]

def embeddedActive (tool_function_name : String) : PyValue :=
  embedded "success" (tool_function_name ++ ": Embedded UI result is active and visible to the user.")

def contextOr (result_context : PyValue) (tool_function_name : String) : PyValue :=
  match result_context with
  | .str text => .str text
  | .dict items => .dict items
  | .list items => .list items
  | _ => embeddedActive tool_function_name

def embeddedStatus (tool_function_name : String) (status_code : Int) (result_context : PyValue) :
    PyValue :=
  if 200 ≤ status_code ∧ status_code < 300 then contextOr result_context tool_function_name
  else if 400 ≤ status_code ∧ status_code < 500 then
    embedded "error" (tool_function_name ++ ": Client error " ++ toString status_code ++
      " from embedded UI result.")
  else if 500 ≤ status_code ∧ status_code < 600 then
    embedded "error" (tool_function_name ++ ": Server error " ++ toString status_code ++
      " from embedded UI result.")
  else
    embedded "error" (tool_function_name ++ ": Unexpected status code " ++ toString status_code ++
      " from embedded UI result.")

def unpackHtml (tool_function_name content_disposition body : String) (status_code : Int)
    (result_context : PyValue) : Unpacked :=
  if within "inline".toList content_disposition.toList then
    ⟨embeddedStatus tool_function_name status_code result_context, [.str body]⟩
  else ⟨.str body, []⟩

def pairContext : PyValue → PyValue
  | .tuple [_, context] => context
  | .list [_, context] => context
  | _ => .none

def pairContent : PyValue → PyValue
  | .tuple [content, _] => content
  | .list [content, _] => content
  | value => value

def header (headers : List (PyValue × PyValue)) (name lower : String) : PyValue :=
  PyValue.get headers name (PyValue.get headers lower PyValue.empty)

def unpackInline (tool_function_name : String) (result : PyValue)
    (headers : List (PyValue × PyValue)) : Except PyError Unpacked := do
  if ← (header headers "Content-Type" "content-type").contains "text/html" then
    return ⟨contextOr (pairContext result) tool_function_name, [pairContent result]⟩
  else if (header headers "Location" "location").truthy then
    return ⟨contextOr (pairContext result) tool_function_name, [header headers "Location" "location"]⟩
  else return ⟨result, []⟩

def responseHeaders (runtime : Runtime) : PyValue → List (PyValue × PyValue)
  | .dict items => items
  | value => (runtime.toDict value).toOption.getD []

def unpackHeaders (runtime : Runtime) (tool_function_name : String) (result headers : PyValue) :
    Except PyError Unpacked := do
  let headers := responseHeaders runtime headers
  if headers.isEmpty then return ⟨result, []⟩
  else if ← (header headers "Content-Disposition" "content-disposition").contains "inline" then
    unpackInline tool_function_name result headers
  else return ⟨result, []⟩

/-- `EXTERNAL_TOOL_TYPES`. -/
def isExternal (tool_type : Option String) : Bool :=
  decide (tool_type = some "external" ∨ tool_type = some "action" ∨ tool_type = some "terminal")

def unpackPair (runtime : Runtime) (tool_function_name : String) :
    List PyValue → Except PyError Unpacked
  | [result, headers] => unpackHeaders runtime tool_function_name result headers
  | _ => .error .valueError

def unpack (runtime : Runtime) (tool_function_name : String) (tool_type : Option String)
    (direct_tool : Bool) (tool_result : PyValue) : Except PyError Unpacked :=
  match tool_result with
  | .html content_disposition body status_code =>
    .ok (unpackHtml tool_function_name content_disposition body status_code .none)
  | .tuple [.html content_disposition body status_code, result_context] =>
    .ok (unpackHtml tool_function_name content_disposition body status_code result_context)
  | .tuple items =>
    if isExternal tool_type then unpackPair runtime tool_function_name items
    else .ok ⟨tool_result, []⟩
  | .list [result, headers] =>
    if direct_tool then unpackHeaders runtime tool_function_name result headers
    else .ok ⟨tool_result, []⟩
  | _ => .ok ⟨tool_result, []⟩

/-- The texts and the files that the items of a result become. -/
structure Parts where
  response : List PyValue
  files : List ToolFile

def Parts.say (parts : Parts) (value : PyValue) : Parts :=
  { parts with response := parts.response ++ [value] }

def Parts.attach (parts : Parts) (file : ToolFile) : Parts :=
  { parts with files := parts.files ++ [file] }

def storeMedia (runtime : Runtime) (parts : Parts) (kind : String)
    (item : List (PyValue × PyValue)) : Except PyError Parts := do
  let mimeType ← text runtime (PyValue.get item "mimeType" .none)
  let data ← text runtime (PyValue.get item "data" (PyValue.get item "blob" PyValue.empty))
  let file_url ← runtime.get_file_url_from_base64 ("data:" ++ mimeType ++ ";base64," ++ data)
  return parts.attach (.media kind file_url)

def attachBlob (runtime : Runtime) (parts : Parts) (resource : List (PyValue × PyValue)) :
    Except PyError Parts := do
  let given := PyValue.get resource "mimeType" .none
  let mimeType := if given.truthy then given else .str "application/octet-stream"
  match mimeType with
  | .str resource_mime_type =>
    if startsWith resource_mime_type "image/" then
      let blob ← text runtime (PyValue.get resource "blob" PyValue.empty)
      return parts.attach (.media "image"
        (some ("data:" ++ resource_mime_type ++ ";base64," ++ blob)))
    else
      let uri ← text runtime (PyValue.get resource "uri" (.str "resource"))
      return parts.say (.str ("[Resource: " ++ uri ++ "] (binary data, mimeType: " ++
        resource_mime_type ++ ")"))
  | _ => .error .attributeError

def readResource (runtime : Runtime) (parts : Parts) : PyValue → Except PyError Parts
  | .dict resource =>
    let resource_text := PyValue.get resource "text" PyValue.empty
    match resource_text with
    | .str (text : String) =>
      if text ≠ "" then (decoded runtime (.str text)).map parts.say
      else if (PyValue.get resource "blob" .none).truthy then attachBlob runtime parts resource
      else if (PyValue.get resource "uri" .none).truthy then
        .ok (parts.say (PyValue.get resource "uri" .none))
      else .ok parts
    | _ =>
      if (PyValue.get resource "blob" .none).truthy then attachBlob runtime parts resource
      else if (PyValue.get resource "uri" .none).truthy then
        .ok (parts.say (PyValue.get resource "uri" .none))
      else .ok parts
  | _ => .error .attributeError

def readItem (runtime : Runtime) (parts : Parts) : PyValue → Except PyError Parts
  | .dict item =>
    let kind := PyValue.get item "type" .none
    if kind.isStr "text" then
      (decoded runtime (PyValue.get item "text" PyValue.empty)).map parts.say
    else if kind.isStr "image" then storeMedia runtime parts "image" item
    else if kind.isStr "audio" then storeMedia runtime parts "audio" item
    else if kind.isStr "resource" then
      readResource runtime parts (PyValue.get item "resource" (.dict []))
    else .ok parts
  | _ => .ok parts

/-- `items.remove(text)`. -/
def remove (text : String) : List PyValue → List PyValue
  | [] => []
  | item :: rest => if item.isStr text then rest else item :: remove text rest

def takeData : Nat → Nat → List PyValue → List ToolFile → List PyValue × List ToolFile
  | 0, _, items, files => (items, files)
  | fuel + 1, index, items, files =>
    match items[index]? with
    | Option.none => (items, files)
    | some (.str item) =>
      if startsWith item "data:" then
        takeData fuel (index + 1) (remove item items) (files ++ [.data item])
      else takeData fuel (index + 1) items files
    | some _ => takeData fuel (index + 1) items files

def mcpResponse : List PyValue → PyValue
  | [value] => value
  | values => .list values

def readList (runtime : Runtime) (tool_type : Option String) (result : PyValue)
    (files : List ToolFile) : Except PyError (PyValue × List ToolFile) :=
  match result with
  | .list items =>
    if tool_type = some "mcp" then
      (items.foldlM (readItem runtime) ⟨[], files⟩).map (fun parts =>
        (mcpResponse parts.response, parts.files))
    else
      let taken := takeData items.length 0 items files
      .ok (.list taken.1, taken.2)
  | value => .ok (value, files)

def resultText (runtime : Runtime) : PyValue → Except PyError (Option String)
  | .none => .ok none
  | .list items => (dumpsIndented runtime (.dict [(.str "results", .list items)])).map some
  | .dict items => (dumpsIndented runtime (.dict items)).map some
  | .tuple [] => .ok (some "")
  | .tuple (first :: _) => (dumpsIndented runtime first).map some
  | value => (text runtime value).map some

structure Processed where
  text : Option String
  files : List ToolFile
  embeds : List PyValue

def process_tool_result (runtime : Runtime) (tool_function_name : String) (tool_result : PyValue)
    (tool_type : Option String) (direct_tool : Bool) : Except PyError Processed := do
  let unpacked ← unpack runtime tool_function_name tool_type direct_tool tool_result
  let image : PyValue × List ToolFile := match unpacked.result with
    | .str text =>
      if startsWith text "data:image/" then
        (.str (tool_function_name ++ ": Image file read successfully."), [.media "image" (some text)])
      else (unpacked.result, [])
    | value => (value, [])
  let read ← readList runtime tool_type image.1 image.2
  let done ← resultText runtime read.1
  return ⟨done, read.2, unpacked.embeds⟩

/-- The handler that shows what a terminal tool did. It looks at the parameters and the result of
the tools that name a file. -/
def terminal_event_handler (runtime : Runtime) (tool_function_name : String)
    (tool_function_params : PyValue) (tool_result : Option String) : Except PyError Unit :=
  if tool_function_name = "display_file" then
    match tool_function_params with
    | .dict items =>
      if (PyValue.get items "path" PyValue.empty).truthy then
        match tool_result with
        | Option.none => .ok ()
        | some text => (decoded runtime (.str text)).map (fun _ => ())
      else .ok ()
    | _ => .error .attributeError
  else if tool_function_name = "write_file" ∨ tool_function_name = "replace_file_content" then
    match tool_function_params with
    | .dict _ => .ok ()
    | _ => .error .attributeError
  else .ok ()

end OpenWebui.ToolCalls

namespace OpenWebui.ToolCalls

structure ToolCall where
  id : String
  name : String
  arguments : String
  deriving DecidableEq

/-- An entry of the tools: the names of the parameters of its spec, and how it is to be called. -/
structure Tool where
  parameters : List String
  type : String
  direct : Bool

inductive Behaviour where
  | returns (value : PyValue)
  | raises (text : String)

/-- Parameters as they are passed to a tool, and what the tools do with them. A call is known by
its place in the batch. -/
structure Environment extends Runtime where
  tools : Dict String Tool
  behave : Nat → List (PyValue × PyValue) → Behaviour

inductive Part where
  | input_text (text : String)
  | input_image (image_url : String)
  deriving DecidableEq

inductive OutputItem where
  | function_call (id call_id name arguments status : String)
  | function_call_output (id call_id : String) (output : List Part) (files : List ToolFile)
      (embeds : List PyValue)
  | message (id text : String)
  | other (type : String) (call_id : Option String)

def callIds (output : List OutputItem) : List String :=
  output.filterMap (fun item => match item with
    | .function_call _ call_id _ _ _ => some call_id
    | _ => none)

def answerIds (output : List OutputItem) : List String :=
  output.filterMap (fun item => match item with
    | .function_call_output _ call_id _ _ _ => some call_id
    | _ => none)

section Round

variable (environment : Environment)

def announce (existing_call_ids : List String) (output : List OutputItem) (call : ToolCall) :
    List OutputItem :=
  if call.id ∈ existing_call_ids then output
  else
    let id := if call.id ≠ "" then call.id else environment.output_id "fc" output.length
    output ++ [.function_call id call.id call.name call.arguments "in_progress"]

def readArguments (arguments : String) : Option PyValue :=
  if Text.strip arguments.toList = [] then some (.dict [])
  else
    match environment.loads arguments with
    | .value value => some value
    | _ => (environment.literal_eval arguments).toOption

/-- The parameters with the text that the arguments of the call are replaced by; nothing where the
text was not understood. -/
def parse_tool_params (arguments : String) : Except PyError (PyValue × String) :=
  match readArguments environment arguments with
  | none => .ok (.none, arguments)
  | some params => (dumps environment.toRuntime params).map (fun dumped => (params, dumped))

structure Executed where
  params : PyValue
  result : PyValue
  tool : Option Tool
  arguments : String

def notFound (name : String) : String := "Error: Tool \"" ++ name ++ "\" not found."

def allowedParams (tool : Tool) (params : List (PyValue × PyValue)) : List (PyValue × PyValue) :=
  params.filter (fun item => tool.parameters.any (fun name => item.1.isStr name))

def callTool (index : Nat) (params : List (PyValue × PyValue)) : PyValue :=
  match environment.behave index params with
  | .returns value => value
  | .raises text => .str text

def runTool (index : Nat) (name arguments : String) (params : PyValue) : Except PyError Executed :=
  match environment.tools.get? name with
  | none => .ok ⟨params, .str (notFound name), none, arguments⟩
  | some tool =>
    match params with
    | .dict items =>
      let allowed := allowedParams tool items
      .ok ⟨.dict allowed, callTool environment index allowed, some tool, arguments⟩
    | _ => .error .attributeError

def execute_tool_call (call : Nat × ToolCall) : Except PyError Executed := do
  let parsed ← parse_tool_params environment call.2.arguments
  match parsed.1 with
  | .none => return ⟨.dict [], .none, none, parsed.2⟩
  | params => runTool environment call.1 call.2.name parsed.2 params

def executeAll (calls : List (Nat × ToolCall)) : Except PyError (List (Nat × Executed)) := do
  let first ← (calls.filter (fun call => decide (call.2.name ≠ "delegate_task"))).mapM
    (fun call => (execute_tool_call environment call).map (fun done => (call.1, done)))
  let delegated ← (calls.filter (fun call => decide (call.2.name = "delegate_task"))).mapM
    (fun call => (execute_tool_call environment call).map (fun done => (call.1, done)))
  return first ++ delegated

/-- The answer to a call before it is written to the output. -/
structure Result where
  tool_call_id : String
  content : String
  files : List ToolFile
  embeds : List PyValue

def unparsed (name : String) : String :=
  "Error: Tool call arguments could not be parsed. " ++
    "The model generated malformed or incomplete JSON for `" ++ name ++ "`. Please try again."

def answer (call : ToolCall) (executed : Executed) : Except PyError Result :=
  match executed.result with
  | .none => .ok ⟨call.id, unparsed call.name, [], []⟩
  | tool_result => do
    let processed ← process_tool_result environment.toRuntime call.name tool_result
      (executed.tool.map (fun tool => tool.type)) (executed.tool.any (fun tool => tool.direct))
    terminal_event_handler environment.toRuntime call.name executed.params processed.text
    return ⟨call.id, processed.text.getD "", processed.files, processed.embeds⟩

def complete (output : List OutputItem) (call_id arguments : String) : List OutputItem :=
  match output with
  | [] => []
  | .function_call id other name given status :: rest =>
    if other = call_id then .function_call id other name arguments "completed" :: rest
    else .function_call id other name given status :: complete rest call_id arguments
  | item :: rest => item :: complete rest call_id arguments

def sortFiles (parts : List Part × List ToolFile) (file : ToolFile) :
    Except PyError (List Part × List ToolFile) :=
  match file with
  | .media kind url =>
    if kind = "image" then
      match url with
      | none => .error .attributeError
      | some image_url =>
        if startsWith image_url "data:" then .ok (parts.1 ++ [.input_image image_url], parts.2)
        else .ok (parts.1, parts.2 ++ [file])
    else .ok (parts.1, parts.2 ++ [file])
  | .data _ => .ok (parts.1, parts.2 ++ [file])

def writeAnswer (output : List OutputItem) (result : Result) : Except PyError (List OutputItem) :=
  (result.files.foldlM sortFiles ([.input_text result.content], [])).map (fun sorted =>
    output ++ [.function_call_output (environment.output_id "fco" output.length) result.tool_call_id
      sorted.1 sorted.2 result.embeds])

def indexed (batch : List ToolCall) : List (Nat × ToolCall) :=
  batch.zipIdx.map (fun call => (call.2, call.1))

def tool_round (output : List OutputItem) (batch : List ToolCall) :
    Except PyError (List OutputItem) := do
  let announced := batch.foldl (announce environment (callIds output)) output
  let tool_results ← executeAll environment (indexed batch)
  let results ← (indexed batch).mapM (fun call =>
    match tool_results.lookup call.1 with
    | none => .error .keyError
    | some executed => answer environment call.2 executed)
  let completed := (indexed batch).foldl (fun output call =>
    complete output call.2.id
      (((tool_results.lookup call.1).map Executed.arguments).getD call.2.arguments)) announced
  let answered ← results.foldlM (writeAnswer environment) completed
  return answered ++ [.message (environment.output_id "msg" answered.length) ""]

end Round

end OpenWebui.ToolCalls
