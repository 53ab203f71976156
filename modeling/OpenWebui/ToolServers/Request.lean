import OpenWebui.Base.Substitution
import OpenWebui.Base.Url

/-! The request of a tool call: the operation is looked up in the OpenAPI description of the server,
and the parameters are put in its route and in the query string. -/

namespace OpenWebui.ToolServers

def delimiters : List Char := ['/', '?', '#', '{', '}']

structure Literal where
  text : List Char
  plain : ∀ char ∈ text, char ∉ delimiters

structure Placeholder where
  name : String
  plain : '{' ∉ name.toList ∧ '}' ∉ name.toList

inductive Piece where
  | literal (literal : Literal)
  | placeholder (placeholder : Placeholder)

structure Route where
  segments : List (List Piece)
  rooted : segments ≠ []

/-- The URL of a server: no query, no fragment and no braces, and the slashes at its end apart. -/
structure ServerUrl where
  scheme : List Char
  authority : List Char
  base : List (List Char)
  slashes : Nat
  scheme_plain : ∀ char ∈ scheme, char ∉ ':' :: delimiters
  authority_plain : ∀ char ∈ authority, char ∉ delimiters
  some_authority : authority ≠ []
  base_plain : ∀ part ∈ base, ∀ char ∈ part, char ∉ delimiters
  base_end : ∀ part ∈ base.getLast?, part ≠ []

/-- A parameter that is declared for a path or an operation; one in the path has the name of a
placeholder. -/
structure Parameter where
  name : String
  location : String
  required : Bool
  plain : location = "path" → '{' ∉ name.toList ∧ '}' ∉ name.toList

structure Operation where
  operationId : Option String
  parameters : List Parameter

/-- The methods of a path, with the parameters that hold for all of them. -/
structure PathItem where
  route : Route
  parameters : List Parameter
  methods : List (String × Operation)

def OPENAPI_HTTP_METHODS : List String :=
  ["get", "put", "post", "delete", "options", "head", "patch", "trace"]

def hole (name : String) : List Char := '{' :: (name.toList ++ ['}'])

def Piece.text : Piece → List Char
  | .literal part => part.text
  | .placeholder part => hole part.name

def Route.text (route : Route) : List Char :=
  Url.joined (route.segments.map (fun segment => segment.flatMap Piece.text))

def ServerUrl.text (url : ServerUrl) : List Char :=
  url.scheme ++ ':' :: '/' :: '/' :: (url.authority ++ Url.joined url.base) ++
    List.replicate url.slashes '/'

/-- `text.rstrip("/")`. -/
def rstrip (text : List Char) : List Char :=
  (text.reverse.dropWhile (fun char => decide (char = '/'))).reverse

def method_entry (item : PathItem) (name : String) : Option (String × Operation) :=
  item.methods.find? (fun entry =>
    decide (entry.1 ∈ OPENAPI_HTTP_METHODS ∧ entry.2.operationId = some name))

def matching_route (paths : List PathItem) (name : String) : Option PathItem :=
  paths.find? (fun item => (method_entry item name).isSome)

def merged_params (item : PathItem) (operation : Operation) : Dict (String × String) Parameter :=
  (item.parameters ++ operation.parameters).foldl (fun merged param =>
    if param.name = "" then merged else merged.set (param.name, param.location) param) .empty

def skipped (param : Parameter) (value : Json) : Bool :=
  value = .null ∨ (value = .str "" ∧ param.required = false)

def given (keep : Parameter → Json → Bool) (params : Dict String Json) (param : Parameter) :
    Option (String × Json) :=
  (params.get? param.name).bind (fun value =>
    if keep param value then some (param.name, value) else none)

def collect_param (keep : Parameter → Json → Bool) (params collected : Dict String Json)
    (param : Parameter) : Dict String Json :=
  match given keep params param with
  | some entry => collected.set entry.1 entry.2
  | none => collected

def collect (keep : Parameter → Json → Bool) (merged : Dict (String × String) Parameter)
    (params : Dict String Json) : Dict String Json :=
  merged.entries.foldl (fun collected entry => collect_param keep params collected entry.2) .empty

def path_params : Dict (String × String) Parameter → Dict String Json → Dict String Json :=
  collect (fun param _ => param.location = "path")

def query_params : Dict (String × String) Parameter → Dict String Json → Dict String Json :=
  collect (fun param value => param.location = "query" && !skipped param value)

section Request

variable (formatting : Formatting)

def fill_route (path_params : Dict String Json) (text : List Char) : List Char :=
  path_params.entries.foldl (fun text entry =>
    Substitution.replace (hole entry.1) (Url.quote (formatting.text entry.2)) text) text

def final_url (url : ServerUrl) (route : Route) (path_params query_params : Dict String Json) :
    List Char :=
  let filled := fill_route formatting path_params (rstrip url.text ++ route.text)
  if query_params.entries = [] then filled
  else filled ++ '?' :: Url.urlencode (query_params.entries.map (fun entry =>
    (entry.1, formatting.text entry.2)))

def execute_tool_server (url : ServerUrl) (paths : List PathItem) (name : String)
    (params : Dict String Json) : Option (String × List Char) := do
  let item ← matching_route paths name
  let entry ← method_entry item name
  let merged := merged_params item entry.2
  some (String.ofList (entry.1.toList.map Char.toLower),
    final_url formatting url item.route (path_params merged params) (query_params merged params))

end Request

def Piece.tokens : Piece → Substitution.Tokens Char
  | .literal part => part.text.map .inl
  | .placeholder part => [.inr (hole part.name)]

abbrev Filling := String → Option (List Char)

def Piece.filled (filling : Filling) : Piece → List Char
  | .literal part => part.text
  | .placeholder part => (filling part.name).getD (hole part.name)

def Route.filled (route : Route) (filling : Filling) : List (List Char) :=
  route.segments.map (fun segment => segment.flatMap (Piece.filled filling))

end OpenWebui.ToolServers
