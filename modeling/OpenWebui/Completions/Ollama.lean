import Mathlib.Data.List.DropRight
import OpenWebui.Base.JsonValue
import OpenWebui.Base.Paths
import OpenWebui.Base.Sequence
import OpenWebui.Completions.Messages

/-! The messages of a chat completion as Ollama takes them. -/

namespace OpenWebui.Completions

open JsonText (FloatText Value loads zeroFloats)

structure OllamaToolCall (F : Type) where
  index : Int
  id : Option String
  name : String
  arguments : Value F

/-- A message for Ollama; absent tool calls and images are empty lists. -/
structure OllamaMessage (F : Type) where
  role : String
  content : Option String := none
  thinking : Option String := none
  tool_call_id : Option String := none
  tool_calls : List (OllamaToolCall F) := []
  images : List String := []

/-- `img_url.split(',')[-1]` of a `data:` address. -/
def trimUrl (img_url : String) : String :=
  if "data:".toList <+: img_url.toList then
    String.ofList ((Text.split ',' img_url.toList).getLast?.getD [])
  else img_url

def addItem (read : String × List String) : Part → String × List String
  | .text text => (read.1 ++ text.getD "", read.2)
  | .image_url url =>
    if url.getD "" = "" then read else (read.1, read.2 ++ [trimUrl (url.getD "")])
  | .other _ => read

section Conversion

variable {F : Type} (floats : FloatText F)

/-- `json.loads` of no text raises. -/
def convert_tool_call (tool_call : ToolCall) : Except PyError (OllamaToolCall F) :=
  match tool_call.arguments with
  | none => .error .typeError
  | some arguments =>
    match loads floats arguments.toList with
    | none => .error .valueError
    | some value => .ok ⟨tool_call.index.getD 0, tool_call.id, tool_call.name.getD "", value⟩

def convert_message (message : Message) : Except PyError (OllamaMessage F) :=
  let new_message : OllamaMessage F := { role := message.role, thinking := message.thinking }
  if message.tool_calls ≠ [] then do
    let tool_calls ← message.tool_calls.mapM (convert_tool_call floats)
    .ok { new_message with tool_calls := tool_calls, content := some "" }
  else
    match message.content.getD (.parts []) with
    | .text content =>
      .ok { new_message with
        content := some content
        tool_call_id := message.tool_call_id.filter (fun id => decide (id ≠ "")) }
    -- a null is not a list to go through
    | .null => .error .typeError
    | .parts parts =>
      let read := parts.foldl addItem ("", [])
      .ok { new_message with
        content :=
          if read.1 = "" then none else some (String.ofList (Text.strip read.1.toList))
        images := read.2 }

def convert_messages_openai_to_ollama (messages : List Message) :
    Except PyError (List (OllamaMessage F)) :=
  messages.mapM (convert_message floats)

end Conversion

/-- What comes after the first comma of a `data:` address. -/
def afterComma (url : String) : List Char := (url.toList.dropWhile (fun char => decide (char ≠ ','))).drop 1

/-- The data of a `data:` address; any other address is itself. -/
def imageData (url : String) : String :=
  if "data:".toList <+: url.toList ∧ ',' ∈ url.toList then String.ofList (afterComma url) else url

section Keeping

variable {F : Type} (floats : FloatText F)

/-- A message of a chat: a tool message names its call and makes none, and the arguments of a call
are an object. -/
structure Valid (message : Message) : Prop where
  answers : message.role = "tool" → message.tool_call_id.isSome = true ∧ message.tool_calls = []
  calls : ∀ tool_call ∈ message.tool_calls, ∃ arguments fields, tool_call.arguments = some arguments ∧
    loads floats arguments.toList = some (.obj fields)

/-- What a message for Ollama keeps of the message it is made from. -/
structure Keeps (message : Message) (made : OllamaMessage F) : Prop where
  role : made.role = message.role
  answer : message.role = "tool" → made.tool_call_id = message.tool_call_id ∧
    made.content = some (String.join message.texts)
  shown : message.role = "user" ∨ message.role = "assistant" → message.tool_calls = [] →
    Text.strip (made.content.getD "").toList = Text.strip (String.join message.texts).toList ∧
      made.images = (message.images.filter (fun url => decide (url ≠ ""))).map imageData
  calls : List.Forall₂ (fun tool_call converted => converted.id = tool_call.id ∧
    converted.name = tool_call.name.getD "" ∧
      (tool_call.arguments.bind fun arguments => loads floats arguments.toList) = some converted.arguments)
    message.tool_calls made.tool_calls

/-- Every message is converted, in order, and nothing of it is lost. -/
def Lossless (messages : List Message) : Prop :=
  ∃ made, convert_messages_openai_to_ollama floats messages = .ok made ∧
    List.Forall₂ (Keeps floats) messages made

/-- The shape that the conversion is written for. -/
structure Convertible (message : Message) : Prop where
  present : message.content ≠ some .null
  answer : message.role = "tool" →
    (∃ content, message.content = some (.text content)) ∧ message.tool_call_id ≠ some ""
  images : message.role = "user" ∨ message.role = "assistant" → ∀ url ∈ message.images,
    "data:".toList <+: url.toList → ',' ∉ afterComma url

end Keeping

theorem strip_strip (text : List Char) : Text.strip (Text.strip text) = Text.strip text := by
  have left : Text.lstrip (Text.strip text) = Text.strip text := by
    rw [Text.strip]
    have visible := (Text.lstrip_cases text).choose_spec.2.2
    have front : Text.rstrip (Text.lstrip text) <+: Text.lstrip text := by
      have suffix := List.dropWhile_suffix (l := (Text.lstrip text).reverse) Text.isSpace
      rw [← List.reverse_prefix, List.reverse_reverse] at suffix
      exact suffix
    cases stripped : Text.rstrip (Text.lstrip text) with
    | nil => rfl
    | cons first rest =>
      obtain ⟨after, same⟩ := stripped ▸ front
      have shown := visible first (by rw [← same]; rfl)
      rw [Text.lstrip, List.dropWhile_cons_of_neg (by rw [shown]; exact Bool.false_ne_true)]
  rw [Text.strip, left, Text.strip, Text.rstrip, Text.rstrip, List.reverse_reverse,
    List.dropWhile_idempotent]

theorem parts_at_comma {text : List Char} (comma : ',' ∈ text) : ∃ before,
    text = before ++ ',' :: (text.dropWhile (fun char => decide (char ≠ ','))).drop 1 ∧ ',' ∉ before := by
  induction text with
  | nil => cases comma
  | cons char rest ih =>
    by_cases here : char = ','
    · subst here
      exact ⟨[], by simp, List.not_mem_nil⟩
    · obtain ⟨before, parts, plain⟩ := ih ((List.mem_cons.mp comma).resolve_left (fun same => here same.symm))
      refine ⟨char :: before, ?_, fun member => ?_⟩
      · rw [List.dropWhile_cons_of_pos (by simp [here]), List.cons_append, ← parts]
      · exact (List.mem_cons.mp member).elim (fun same => here same.symm) plain

theorem last_split_iff {before after : List Char} (plain : ',' ∉ before) :
    (Text.split ',' (before ++ ',' :: after)).getLast?.getD [] = after ↔ ',' ∉ after := by
  rw [Text.split_append_separator plain]
  obtain ⟨last, found⟩ : ∃ last, (Text.split ',' after).getLast? = some last :=
    ⟨_, List.getLast?_eq_some_getLast (Text.split_ne_nil after)⟩
  have whole : (before :: Text.split ',' after).getLast? = some last := by
    rw [List.getLast?_cons, found]
    rfl
  rw [whole, Option.getD_some]
  constructor
  · rintro rfl
    exact Text.free_of_mem_split (List.mem_of_getLast? found)
  · intro free
    rw [Text.split_of_free free] at found
    exact (Option.some.inj found).symm

theorem trimUrl_iff (url : String) :
    trimUrl url = imageData url ↔ ("data:".toList <+: url.toList → ',' ∉ afterComma url) := by
  unfold trimUrl imageData
  by_cases embedded : "data:".toList <+: url.toList
  · rw [if_pos embedded]
    by_cases comma : ',' ∈ url.toList
    · obtain ⟨before, parts, plain⟩ := parts_at_comma comma
      rw [if_pos ⟨embedded, comma⟩, String.ofList_inj]
      have last := @last_split_iff before (afterComma url) plain
      rw [afterComma, ← parts] at last
      exact last.trans ⟨fun free _ => free, fun free => free embedded⟩
    · have nothing : ',' ∉ afterComma url := fun member =>
        comma (List.dropWhile_subset _ (List.drop_subset _ _ member))
      rw [if_neg (fun both => comma both.2), Text.split_of_free comma]
      exact iff_of_true (by simp) (fun _ => nothing)
  · rw [if_neg embedded, if_neg (fun both => embedded both.1)]
    exact iff_of_true rfl (fun data => absurd data embedded)

theorem foldl_addItem (parts : List Part) (read : String × List String) :
    parts.foldl addItem read = (read.1 ++ String.join (parts.filterMap Part.text?),
      read.2 ++ ((parts.filterMap Part.image?).filter (fun url => decide (url ≠ ""))).map trimUrl) := by
  induction parts generalizing read with
  | nil => simp
  | cons part rest ih =>
    rw [List.foldl_cons, ih]
    cases part with
    | text value => simp [addItem, List.filterMap_cons, Part.text?, Part.image?, String.append_assoc]
    | image_url url =>
      by_cases empty : url.getD "" = ""
      · simp [addItem, List.filterMap_cons, Part.text?, Part.image?, empty]
      · simp [addItem, List.filterMap_cons, Part.text?, Part.image?, empty]
    | other type => simp [addItem, List.filterMap_cons, Part.text?, Part.image?]

section Lossless

variable {F : Type} {floats : FloatText F}

theorem map_trimUrl_iff (urls : List String) :
    (urls.filter (fun url => decide (url ≠ ""))).map trimUrl =
      (urls.filter (fun url => decide (url ≠ ""))).map imageData ↔
      ∀ url ∈ urls, "data:".toList <+: url.toList → ',' ∉ afterComma url := by
  rw [List.map_inj_left]
  constructor
  · intro same url member embedded
    have filled : url ≠ "" := by
      rintro rfl
      exact absurd embedded (by decide)
    exact (trimUrl_iff url).mp (same url (List.mem_filter.mpr ⟨member, decide_eq_true filled⟩)) embedded
  · intro plain url member
    exact (trimUrl_iff url).mpr (plain url (List.mem_filter.mp member).1)

theorem calls_converted {tool_calls : List ToolCall}
    (calls : ∀ tool_call ∈ tool_calls, ∃ arguments fields, tool_call.arguments = some arguments ∧
      loads floats arguments.toList = some (.obj fields)) :
    ∃ converted, tool_calls.mapM (convert_tool_call floats) = .ok converted ∧
      List.Forall₂ (fun tool_call made => made.id = tool_call.id ∧
        made.name = tool_call.name.getD "" ∧
          (tool_call.arguments.bind fun arguments => loads floats arguments.toList) = some made.arguments)
        tool_calls converted := by
  simp only [Sequence.mapM_eq_ok]
  induction tool_calls with
  | nil => exact ⟨[], .nil, .nil⟩
  | cons tool_call rest ih =>
    obtain ⟨converted, each, kept⟩ := ih (fun other member => calls other (List.mem_cons_of_mem _ member))
    obtain ⟨arguments, fields, given, read⟩ := calls tool_call List.mem_cons_self
    refine ⟨⟨tool_call.index.getD 0, tool_call.id, tool_call.name.getD "", .obj fields⟩ :: converted,
      .cons ?_ each, .cons ⟨rfl, rfl, ?_⟩ kept⟩
    · rw [convert_tool_call, given]
      dsimp only
      rw [read]
    · rw [given, Option.bind_some, read]

/-- One message is converted with all that it has to keep. -/
def Kept (floats : FloatText F) (message : Message) : Prop :=
  ∃ made, convert_message floats message = .ok made ∧ Keeps floats message made

theorem kept_text_iff {message : Message} (calling : message.tool_calls = []) {text : String}
    (content : message.content = some (.text text)) : Kept floats message ↔ Convertible message := by
  have converted : convert_message floats message = .ok ⟨message.role, some text, message.thinking,
      message.tool_call_id.filter (fun id => decide (id ≠ "")), [], []⟩ := by
    rw [convert_message, if_neg (not_not.mpr calling), content]
    rfl
  have texts : message.texts = [text] := by
    rw [Message.texts, content]
    rfl
  have images : message.images = [] := by
    rw [Message.images, content]
    rfl
  constructor
  · rintro ⟨made, done, keeps⟩
    obtain rfl := Except.ok.inj (converted.symm.trans done)
    refine ⟨by rw [content]; simp, fun answers => ⟨⟨text, content⟩, fun empty => ?_⟩, ?_⟩
    · have same := (keeps.answer answers).1
      rw [empty] at same
      cases same
    · intro _ url member
      rw [images] at member
      cases member
  · intro convertible
    refine ⟨_, converted, rfl, fun answers => ⟨?_, by rw [texts]; simp⟩, fun _ _ => ⟨?_, ?_⟩, ?_⟩
    · have named := (convertible.answer answers).2
      cases given : message.tool_call_id with
      | none => rfl
      | some id =>
        rw [given] at named
        have filled : id ≠ "" := fun empty => named (by rw [empty])
        simp [filled]
    · rw [texts]
      simp
    · rw [images]
      rfl
    · rw [calling]
      exact .nil

theorem kept_parts_iff {message : Message} (valid : Valid floats message)
    (calling : message.tool_calls = []) {parts : List Part}
    (content : message.content.getD (.parts []) = .parts parts) :
    Kept floats message ↔ Convertible message := by
  have absent : ∀ text, message.content ≠ some (.text text) := by
    intro text same
    rw [same] at content
    cases content
  have contents : message.texts = parts.filterMap Part.text? ∧
      message.images = parts.filterMap Part.image? := by
    rw [Message.texts, Message.images]
    cases given : message.content with
    | none =>
      rw [given] at content
      cases content
      exact ⟨rfl, rfl⟩
    | some held =>
      rw [given] at content
      obtain rfl : held = .parts parts := content
      exact ⟨rfl, rfl⟩
  have converted : convert_message floats message = .ok ⟨message.role,
      if String.join message.texts = "" then none
        else some (String.ofList (Text.strip (String.join message.texts).toList)),
      message.thinking, none, [],
      (message.images.filter (fun url => decide (url ≠ ""))).map trimUrl⟩ := by
    rw [convert_message, if_neg (not_not.mpr calling), content]
    dsimp only
    rw [foldl_addItem, String.empty_append, List.nil_append, contents.1, contents.2]
  constructor
  · rintro ⟨made, done, keeps⟩
    obtain rfl := Except.ok.inj (converted.symm.trans done)
    refine ⟨fun null => ?_, fun answers => ?_, fun shown => ?_⟩
    · rw [null] at content
      cases content
    · have named := (valid.answers answers).1
      rw [← (keeps.answer answers).1] at named
      cases named
    · exact (map_trimUrl_iff message.images).mp (keeps.shown shown calling).2
  · intro convertible
    refine ⟨_, converted, rfl, fun answers => ?_, fun shown _ => ⟨?_, ?_⟩, ?_⟩
    · obtain ⟨text, given⟩ := (convertible.answer answers).1
      exact absurd given (absent text)
    · dsimp only
      split
      · rename_i empty
        rw [empty]
        rfl
      · rw [Option.getD_some, String.toList_ofList, strip_strip]
    · exact (map_trimUrl_iff message.images).mpr (convertible.images shown)
    · rw [calling]
      exact .nil

theorem kept_iff {message : Message} (valid : Valid floats message) :
    Kept floats message ↔ (message.tool_calls = [] → Convertible message) := by
  by_cases calling : message.tool_calls = []
  · rw [imp_iff_right calling]
    cases content : message.content with
    | none => exact kept_parts_iff valid calling (by rw [content]; rfl)
    | some held =>
      cases held with
      | text text => exact kept_text_iff calling content
      | parts parts => exact kept_parts_iff valid calling (by rw [content]; rfl)
      | null =>
        refine iff_of_false ?_ (fun convertible => convertible.present content)
        rintro ⟨made, done, _⟩
        rw [convert_message, if_neg (not_not.mpr calling), content] at done
        cases done
  · refine iff_of_true ?_ (fun none => absurd none calling)
    obtain ⟨converted, done, kept⟩ := calls_converted valid.calls
    refine ⟨⟨message.role, some "", message.thinking, none, converted, []⟩, ?_, rfl,
      fun answers => absurd (valid.answers answers).2 calling, fun _ none => absurd none calling, kept⟩
    rw [convert_message, if_pos calling, done]
    rfl

/-- A chat is converted without loss exactly when each message that makes no call has the shape
that the conversion is written for. -/
theorem lossless_iff (floats : FloatText F) (messages : List Message)
    (valid : ∀ message ∈ messages, Valid floats message) :
    Lossless floats messages ↔
      ∀ message ∈ messages, message.tool_calls = [] → Convertible message := by
  have each : Lossless floats messages ↔ ∀ message ∈ messages, Kept floats message := by
    unfold Lossless convert_messages_openai_to_ollama
    simp only [Sequence.mapM_eq_ok]
    induction messages with
    | nil => exact iff_of_true ⟨[], .nil, .nil⟩ (by simp)
    | cons message rest ih =>
      rw [List.forall_mem_cons, ← ih (fun other member => valid other (List.mem_cons_of_mem _ member))]
      constructor
      · rintro ⟨made, converted, keeps⟩
        cases converted with
        | cons first later =>
          cases keeps with
          | cons kept others => exact ⟨⟨_, first, kept⟩, _, later, others⟩
      · rintro ⟨⟨first, converted, kept⟩, made, later, others⟩
        exact ⟨first :: made, .cons converted later, .cons kept others⟩
  rw [each]
  exact forall₂_congr fun message member => kept_iff (valid message member)

end Lossless

def answeredChat : List Message :=
  [{ role := "user",
      content := some (.parts [.text (some "What is it?"), .image_url (some "data:image/png;base64,AA")]) },
    { role := "assistant", content := some .null, tool_calls := [⟨none, some "c", some "look", some "{}"⟩] },
    { role := "tool", content := some (.text "A dot."), tool_call_id := some "c" }]

theorem answeredChat_lossless : Lossless zeroFloats answeredChat := by
  refine (lossless_iff zeroFloats answeredChat ?_).mpr ?_
  · simp only [answeredChat, List.forall_mem_cons]
    refine ⟨⟨by decide, by simp⟩, ⟨by decide, ?_⟩, ⟨by decide, by simp⟩, by simp⟩
    intro tool_call member
    obtain rfl := List.mem_singleton.mp member
    exact ⟨_, [], rfl, rfl⟩
  · simp only [answeredChat, List.forall_mem_cons]
    refine ⟨fun _ => ⟨by simp, by simp, ?_⟩, by simp, fun _ => ⟨by simp, fun _ => ⟨⟨_, rfl⟩, by decide⟩, ?_⟩,
      by simp⟩
    · intro _ url member _
      obtain rfl := List.mem_singleton.mp member
      decide
    · intro _ url member
      cases member

def listAnswer : Message :=
  { role := "tool", content := some (.parts [.text (some "A dot.")]), tool_call_id := some "c" }

/-- A message with no content raises, and an answer that is a list loses the id of its call. -/
theorem null_and_list_lossy :
    ¬ Lossless zeroFloats [{ role := "assistant", content := some .null }] ∧
      ¬ Lossless zeroFloats [listAnswer] := by
  refine ⟨?_, ?_⟩
  · rintro ⟨made, converted, _⟩
    cases converted
  · rintro ⟨made, converted, keeps⟩
    cases converted
    cases keeps with
    | cons kept _ =>
      have named := (kept.answer rfl).1
      cases named

end OpenWebui.Completions
