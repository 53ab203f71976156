import OpenWebui.Base.Json

/-! The messages of a chat completion, with their texts, images and tool calls. -/

namespace OpenWebui.Completions

/-- A part of a content list; none where the part has no such field. -/
inductive Part where
  | text (text : Option String)
  | image_url (url : Option String)
  | other (type : String)

inductive Content where
  | null
  | text (text : String)
  | parts (parts : List Part)

/-- A tool call, with the name and arguments of its function. -/
structure ToolCall where
  index : Option Int
  id : Option String
  name : Option String
  arguments : Option String

/-- A message; an absent list of tool calls is the empty one. A stored output is of an earlier turn. -/
structure Message where
  role : String
  content : Option Content := none
  tool_calls : List ToolCall := []
  tool_call_id : Option String := none
  thinking : Option String := none
  output : List Fields := []

def Part.text? : Part → Option String
  | .text value => some (value.getD "")
  | _ => none

def Part.image? : Part → Option String
  | .image_url value => some (value.getD "")
  | _ => none

def Content.texts : Content → List String
  | .null => []
  | .text whole => [whole]
  | .parts items => items.filterMap Part.text?

def Content.images : Content → List String
  | .parts items => items.filterMap Part.image?
  | _ => []

def Message.texts (message : Message) : List String :=
  match message.content with
  | some content => content.texts
  | none => []

def Message.images (message : Message) : List String :=
  match message.content with
  | some content => content.images
  | none => []

end OpenWebui.Completions
