import OpenWebui.Base.FirstFree
import OpenWebui.Base.Text

/-! The tools of a request, merged from their sources into one dictionary. -/

namespace OpenWebui.Tools

/-- The spec of a function as it is sent to the model, with the names of its parameters. -/
structure Spec where
  name : String
  parameters : List String
  deriving DecidableEq

inductive Callable where
  | workspace (tool_id name : String)
  | openapi (server_id name : String)
  | mcp (server_id name : String)
  | terminal (name : String)
  | direct (server name : String)
  | builtin (name : String)
  deriving DecidableEq

def Callable.advertised : Callable → String
  | .workspace _ name | .openapi _ name | .terminal name | .direct _ name | .builtin name => name
  | .mcp server_id name => server_id ++ "_" ++ name

def Callable.isDirect : Callable → Bool
  | .direct _ _ => true
  | _ => false

def Callable.called (name : String) : Callable → Callable
  | .direct server _ => .direct server name
  | callable => callable

/-- An entry of the dictionary; its spec has the name of its function. -/
structure ToolEntry where
  spec : Spec
  callable : Callable
  named : spec.name = callable.advertised

structure ToolModel where
  specs : List Spec
  accessible : Bool

structure ToolServer where
  id : String
  idx : Nat
  specs : List Spec

/-- The connection of a server, and what the check of access says. -/
structure Connection where
  function_name_filter_list : List String
  accessible : Bool

structure Sources where
  plugins : Bool
  tool_models : String → Option ToolModel
  tool_servers : List ToolServer
  connections : List Connection
  connect_mcp_server : String → Option (List Spec)
  terminal : Except PyError (List Spec)
  direct_tool_servers : List (String × List Spec)
  builtin_tools : List Spec

/-- A function that was loaded, with the id that a name taken before is prepended with. -/
structure Loaded where
  owner : String
  entry : ToolEntry
  stored : entry.callable.isDirect = false

def isQuote (char : Char) : Bool := decide (char.toNat = 34 ∨ char.toNat = 39)

def stripQuotes (text : List Char) : List Char :=
  ((text.dropWhile isQuote).reverse.dropWhile isQuote).reverse

def strip_filter_entry (entry : List Char) : List Char :=
  Text.strip (stripQuotes (Text.strip entry))

def filterEntry (raw : String) : Bool × List Char :=
  let entry := strip_filter_entry raw.toList
  match entry with
  | '!' :: rest => (true, strip_filter_entry rest)
  | entry => (false, entry)

def is_string_allowed (name : String) (filter_list : List String) : Bool :=
  let entries := (filter_list.map filterEntry).filter (fun entry => !entry.2.isEmpty)
  let allowed := (entries.filter (fun entry => !entry.1)).map Prod.snd
  let blocked := (entries.filter (fun entry => entry.1)).map Prod.snd
  (allowed.isEmpty || allowed.any (fun ending => ending.isSuffixOf name.toList)) &&
    !blocked.any (fun ending => ending.isSuffixOf name.toList)

def withoutReserved (spec : Spec) : Spec :=
  { spec with parameters :=
      spec.parameters.filter (fun key => !("__".toList.isPrefixOf key.toList)) }

def loadTool (tool_id : String) (tool : ToolModel) : List Loaded :=
  if tool.accessible then
    tool.specs.map (fun spec =>
      ⟨tool_id, ⟨withoutReserved spec, .workspace tool_id spec.name, rfl⟩, rfl⟩)
  else []

def cutFunctions (server_id : String) : String :=
  match Text.split '|' server_id.toList with
  | [first, _] => String.ofList first
  | _ => server_id

def readServerId (previous : Option (String × String)) (tool_id : String) :
    Except PyError (String × String) :=
  match (Text.split ':' tool_id.toList).map String.ofList with
  | [_, server_id] => .ok ("openapi", cutFunctions server_id)
  | [_, type, server_id] => .ok (type, cutFunctions server_id)
  | _ =>
    match previous with
    | some server => .ok (server.1, cutFunctions server.2)
    | none => .error .unboundLocalError

def loadServer (sources : Sources) (server_id : String) : List Loaded :=
  match sources.tool_servers.find? (fun server => decide (server.id = server_id)) with
  | none => []
  | some tool_server =>
    match sources.connections[tool_server.idx]? with
    | none => []
    | some connection =>
      if connection.accessible then
        (tool_server.specs.filter (fun spec => connection.function_name_filter_list.isEmpty ||
          is_string_allowed spec.name connection.function_name_filter_list)).map (fun spec =>
            ⟨server_id, ⟨spec, .openapi server_id spec.name, rfl⟩, rfl⟩)
      else []

def load (sources : Sources) (previous : Option (String × String)) (tool_id : String) :
    Except PyError (Option (String × String) × List Loaded) :=
  match sources.tool_models tool_id with
  | some tool => .ok (previous, loadTool tool_id tool)
  | none =>
    if "server:".toList.isPrefixOf tool_id.toList then
      (readServerId previous tool_id).map (fun server =>
        (some server, if server.1 = "openapi" then loadServer sources server.2 else []))
    else .ok (previous, [])

/-- `function_name` is prepended with an id until it is free. -/
def freeName (taken : List String) (owner name : String) : String :=
  firstFree (fun name => owner ++ "_" ++ name) taken taken.length name

def register (tools_dict : Dict String ToolEntry) (function : Loaded) : Dict String ToolEntry :=
  tools_dict.set (freeName tools_dict.keys function.owner function.entry.spec.name) function.entry

def get_tools (sources : Sources) (tool_ids : List String) : Except PyError (Dict String ToolEntry) :=
  if sources.plugins then
    (tool_ids.foldlM (fun state tool_id =>
      (load sources state.1 tool_id).map (fun loaded =>
        (loaded.1, loaded.2.foldl register state.2))) (none, Dict.empty)).map Prod.snd
  else .ok Dict.empty

/-- `tools_dict[name] = tool`, under the name of its spec. -/
def setNamed (tools_dict : Dict String ToolEntry) (tool : ToolEntry) : Dict String ToolEntry :=
  tools_dict.set tool.spec.name tool

def isMcp (tool_id : String) : Bool := "server:mcp:".toList.isPrefixOf tool_id.toList

def mcpEntry (server_id : String) (tool_spec : Spec) : ToolEntry :=
  ⟨{ tool_spec with name := server_id ++ "_" ++ tool_spec.name }, .mcp server_id tool_spec.name, rfl⟩

def mcpEntries (sources : Sources) (tool_id : String) : List ToolEntry :=
  let server_id := String.ofList (tool_id.toList.drop "server:mcp:".length)
  ((sources.connect_mcp_server server_id).getD []).map (mcpEntry server_id)

def terminalEntry (spec : Spec) : ToolEntry := ⟨spec, .terminal spec.name, rfl⟩

def directEntries (server : String × List Spec) : List ToolEntry :=
  server.2.map (fun tool => ⟨tool, .direct server.1 tool.name, rfl⟩)

def addBuiltin (tools_dict : Dict String ToolEntry) (spec : Spec) : Dict String ToolEntry :=
  if spec.name ∈ tools_dict.keys then tools_dict
  else tools_dict.set spec.name ⟨spec, .builtin spec.name, rfl⟩

def resolveTools (sources : Sources) (tool_ids : List String) :
    Except PyError (Dict String ToolEntry) := do
  let mcp_tools_dict := ((tool_ids.filter isMcp).flatMap (mcpEntries sources)).foldl setNamed Dict.empty
  let db_tool_ids := if sources.plugins then tool_ids.filter (fun tool_id => !isMcp tool_id) else []
  let db_tools ← get_tools sources db_tool_ids
  let terminal_specs ← sources.terminal
  let terminal_tools := (terminal_specs.map terminalEntry).foldl setNamed Dict.empty
  let merged := (db_tools.merge mcp_tools_dict).merge terminal_tools
  let direct := (sources.direct_tool_servers.flatMap directEntries).foldl setNamed merged
  return sources.builtin_tools.foldl addBuiltin direct

def advertisedTools (tools : Dict String ToolEntry) : List Spec :=
  tools.entries.map (fun entry => entry.2.spec)

def dispatch (tools : Dict String ToolEntry) (name : String) : Option Callable :=
  (tools.get? name).map (fun tool => tool.callable.called name)

end OpenWebui.Tools
