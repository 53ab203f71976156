import OpenWebui.Anthropic.Stream

/-! The text of the arguments of a tool call: what is routed to the call, piece by piece, and what is
passed on in its block. -/

namespace OpenWebui.Anthropic

/-- A piece of a tool call; an empty text stands for a field that is absent. -/
structure ToolDelta where
  index : Int
  id : String
  name : String
  arguments : String
  deriving DecidableEq

structure OpenAIDelta where
  reasoning_content : String := ""
  content : String := ""
  tool_calls : List ToolDelta := []
  finish_reason : Option String := none
  /-- The tokens of the prompt and those of the completion. -/
  usage : Option (Nat × Nat) := none

def ToolDelta.toJson (delta : ToolDelta) : Json :=
  .obj [("index", .num delta.index), ("id", .str delta.id),
    ("function", .obj [("name", .str delta.name), ("arguments", .str delta.arguments)])]

def usageJson : Option (Nat × Nat) → Json
  | none => .null
  | some (prompt, completion) =>
    .obj [("prompt_tokens", .num prompt), ("completion_tokens", .num completion)]

def OpenAIDelta.deltaJson (delta : OpenAIDelta) : Json :=
  .obj [("reasoning_content", .str delta.reasoning_content), ("content", .str delta.content),
    ("tool_calls", .arr (delta.tool_calls.map ToolDelta.toJson))]

def OpenAIDelta.toJson (delta : OpenAIDelta) : Json :=
  .obj [("usage", usageJson delta.usage), ("choices", .arr [.obj [("delta", delta.deltaJson),
    ("finish_reason", (delta.finish_reason.map Json.str).getD .null)]])]

abbrev Log := List (String × ToolDelta)

def callIds (log : Log) : List Json :=
  log.foldl (fun ids entry => if .str entry.1 ∈ ids then ids else ids ++ [.str entry.1]) []

def callAt (log : Log) (index : Int) : Option String :=
  (log.reverse.find? (fun entry => entry.2.index = index)).map Prod.fst

def routeOf (runtime : Runtime) (log : Log) (delta : ToolDelta) : String :=
  if delta.id = "" then (callAt log delta.index).getD (runtime.fallback_id (callIds log)) else delta.id

def routed (runtime : Runtime) (deltas : List ToolDelta) : Log :=
  deltas.foldl (fun log delta => log ++ [(routeOf runtime log delta, delta)]) []

def piecesOf (log : Log) (id : String) : List ToolDelta :=
  (log.filter (fun entry => entry.1 = id)).map Prod.snd

def complete (runtime : Runtime) (text : String) : Bool :=
  match runtime.loads text with
  | .ok _ => true
  | .error _ => false

def upToComplete (runtime : Runtime) (before : String) : List ToolDelta → String
  | [] => ""
  | delta :: rest =>
    if delta.arguments = "" then upToComplete runtime before rest
    else if complete runtime (before ++ delta.arguments) then delta.arguments
    else delta.arguments ++ upToComplete runtime (before ++ delta.arguments) rest

def argumentText (events : List Event) (index : Int) : String :=
  String.join (events.filterMap (fun
    | .content_block_delta at_index (.input_json_delta chunk) =>
      if at_index = index then some chunk else none
    | _ => none))

def unnamed (deltas : List ToolDelta) : List ToolDelta := deltas.takeWhile (fun delta => delta.name = "")

def named (deltas : List ToolDelta) : List ToolDelta := deltas.dropWhile (fun delta => delta.name = "")

def textOf (deltas : List ToolDelta) : String := String.join (deltas.map ToolDelta.arguments)

def completes (runtime : Runtime) (before : String) : List ToolDelta → Bool
  | [] => false
  | delta :: rest =>
    if delta.arguments = "" then completes runtime before rest
    else complete runtime (before ++ delta.arguments) || completes runtime (before ++ delta.arguments) rest

/-- The text that comes before the name is complete by itself, and what comes after it happens to pass
on the same text again. -/
def Repeats (runtime : Runtime) (deltas : List ToolDelta) : Prop :=
  completes runtime "" (unnamed deltas) = true ∧
    upToComplete runtime "" (unnamed deltas) =
      upToComplete runtime (textOf (unnamed deltas)) (named deltas)

/-- No text of the arguments comes before the name. -/
def NameFirst (deltas : List ToolDelta) : Prop := ∀ delta ∈ unnamed deltas, delta.arguments = ""

section Call

/-- What the converter knows of a call, and what it has passed on of its arguments. -/
structure Call where
  name : String := ""
  arguments : String := ""
  started : Bool := false
  stopped : Bool := false
  emitted : String := ""

def Call.take (runtime : Runtime) (call : Call) (delta : ToolDelta) : Call :=
  let name := if call.name = "" then delta.name else call.name
  let arguments := call.arguments ++ delta.arguments
  let started := call.started || decide (name ≠ "")
  if delta.arguments ≠ "" ∧ started = true ∧ call.stopped = false then
    { name, arguments, started, stopped := complete runtime arguments
      emitted := call.emitted ++ delta.arguments }
  else { name, arguments, started, stopped := call.stopped, emitted := call.emitted }

def callOf (runtime : Runtime) (deltas : List ToolDelta) : Call :=
  deltas.foldl (Call.take runtime) {}

variable {runtime : Runtime}

theorem foldl_take_started {call : Call} (named : call.name ≠ "") (started : call.started = true)
    (deltas : List ToolDelta) :
    (deltas.foldl (Call.take runtime) call).emitted = if call.stopped = true then call.emitted
      else call.emitted ++ upToComplete runtime call.arguments deltas := by
  induction deltas generalizing call with
  | nil => simp [upToComplete]
  | cons delta rest ih =>
    rw [List.foldl_cons]
    by_cases silent : delta.arguments = ""
    · rw [ih (by simp [Call.take, silent, named]) (by simp [Call.take, silent, started])]
      simp [Call.take, silent, upToComplete]
    · by_cases stopped : call.stopped = true
      · rw [ih (by simp [Call.take, stopped, named]) (by simp [Call.take, stopped, started])]
        simp [Call.take, stopped]
      · have taken : call.take runtime delta =
            { name := call.name, arguments := call.arguments ++ delta.arguments, started := true
              stopped := complete runtime (call.arguments ++ delta.arguments)
              emitted := call.emitted ++ delta.arguments } := by
          simp [Call.take, silent, stopped, named, started]
        have later := @ih (call.take runtime delta) (by rw [taken]; exact named) (by rw [taken])
        rw [later, taken, if_neg stopped, upToComplete, if_neg silent]
        dsimp only
        split
        · rfl
        · rw [String.append_assoc]

@[simp] theorem textOf_nil : textOf [] = "" := rfl

theorem textOf_cons (delta : ToolDelta) (rest : List ToolDelta) :
    textOf (delta :: rest) = delta.arguments ++ textOf rest := by simp [textOf]

theorem foldl_take_unnamed {deltas : List ToolDelta} (silent : ∀ delta ∈ deltas, delta.name = "")
    (arguments : String) :
    deltas.foldl (Call.take runtime) { arguments } = { arguments := arguments ++ textOf deltas } := by
  induction deltas generalizing arguments with
  | nil => simp
  | cons delta rest ih =>
    have nameless : delta.name = "" := silent delta (List.mem_cons_self ..)
    have taken : Call.take runtime { arguments } delta = { arguments := arguments ++ delta.arguments } := by
      simp [Call.take, nameless]
    rw [List.foldl_cons, taken, ih (fun other member => silent other (List.mem_cons_of_mem _ member)),
      textOf_cons, String.append_assoc]

theorem callOf_eq (deltas : List ToolDelta) :
    callOf runtime deltas =
      (named deltas).foldl (Call.take runtime) { arguments := textOf (unnamed deltas) } := by
  have silent : ∀ delta ∈ unnamed deltas, delta.name = "" := by
    intro delta member
    simpa using List.all_eq_true.mp List.all_takeWhile delta member
  have all : unnamed deltas ++ named deltas = deltas := List.takeWhile_append_dropWhile
  have kept := @foldl_take_unnamed runtime (unnamed deltas) silent ""
  rw [String.empty_append] at kept
  rw [← kept, ← List.foldl_append, all]
  rfl

theorem callOf_emitted (deltas : List ToolDelta) :
    (callOf runtime deltas).emitted = upToComplete runtime (textOf (unnamed deltas)) (named deltas) := by
  rw [callOf_eq]
  cases from_name : named deltas with
  | nil => rfl
  | cons delta rest =>
    have brings : delta.name ≠ "" := by
      have head := List.head?_dropWhile_not (fun delta : ToolDelta => decide (delta.name = "")) deltas
      rw [← named, from_name] at head
      simpa using head
    have begun : Call.take runtime { arguments := textOf (unnamed deltas) } delta =
        Call.take runtime { name := delta.name, arguments := textOf (unnamed deltas), started := true }
          delta := by
      simp [Call.take, brings]
    rw [List.foldl_cons, begun, ← List.foldl_cons, foldl_take_started brings rfl]
    simp

theorem Call.take_name (call : Call) (delta : ToolDelta) :
    (call.take runtime delta).name = if call.name = "" then delta.name else call.name := by
  unfold Call.take
  exact (apply_ite Call.name _ _ _).trans (ite_self _)

theorem Call.take_started (call : Call) (delta : ToolDelta) :
    (call.take runtime delta).started =
      (call.started || decide ((if call.name = "" then delta.name else call.name) ≠ "")) := by
  unfold Call.take
  exact (apply_ite Call.started _ _ _).trans (ite_self _)

theorem callOf_started (deltas : List ToolDelta) :
    (callOf runtime deltas).started = decide ((callOf runtime deltas).name ≠ "") := by
  induction deltas using List.reverseRecOn with
  | nil => rfl
  | append_singleton deltas delta ih =>
    rw [callOf, List.foldl_append, List.foldl_cons, List.foldl_nil, ← callOf]
    generalize callOf runtime deltas = call at ih ⊢
    rw [Call.take_started, Call.take_name, ih]
    by_cases nameless : call.name = "" <;> simp [nameless]

theorem upToComplete_append (before : String) (first rest : List ToolDelta) :
    upToComplete runtime before (first ++ rest) =
      if completes runtime before first = true then upToComplete runtime before first
      else textOf first ++ upToComplete runtime (before ++ textOf first) rest := by
  induction first generalizing before with
  | nil => simp [completes]
  | cons delta first ih =>
    rw [List.cons_append, upToComplete, upToComplete, completes, textOf_cons]
    by_cases silent : delta.arguments = ""
    · simp only [if_pos silent]
      rw [ih, silent, String.empty_append]
    · simp only [if_neg silent]
      rw [ih]
      by_cases whole : complete runtime (before ++ delta.arguments) = true
      · simp [whole]
      · simp only [Bool.not_eq_true] at whole
        simp only [whole, Bool.false_or, String.append_assoc, Bool.false_eq_true, if_false]
        split <;> rfl

theorem nameFirst_iff (deltas : List ToolDelta) : NameFirst deltas ↔ textOf (unnamed deltas) = "" := by
  unfold NameFirst
  induction unnamed deltas with
  | nil => simp
  | cons delta rest ih => simp [textOf_cons, ih]

theorem completes_silent {deltas : List ToolDelta} (silent : textOf deltas = "") (before : String) :
    completes runtime before deltas = false := by
  induction deltas generalizing before with
  | nil => rfl
  | cons delta rest ih =>
    rw [textOf_cons, String.append_eq_empty_iff] at silent
    rw [completes, if_pos silent.1, ih silent.2]

theorem emitted_whole_iff (deltas : List ToolDelta) :
    (callOf runtime deltas).emitted = upToComplete runtime "" deltas ↔
      NameFirst deltas ∨ Repeats runtime deltas := by
  have all : unnamed deltas ++ named deltas = deltas := List.takeWhile_append_dropWhile
  have expected := @upToComplete_append runtime "" (unnamed deltas) (named deltas)
  rw [all, String.empty_append] at expected
  rw [callOf_emitted, expected, nameFirst_iff, Repeats]
  by_cases silent : textOf (unnamed deltas) = ""
  · simp [silent, completes_silent silent]
  · by_cases early : completes runtime "" (unnamed deltas) = true
    · simp [silent, early, eq_comm]
    · rw [if_neg early]
      simp only [early, silent, false_or, Bool.false_eq_true, false_and, iff_false]
      intro same
      refine silent (String.length_eq_zero_iff.mp ?_)
      have lengths := congrArg String.length same
      rw [String.length_append] at lengths
      omega

end Call

section Follow

/-- The record of a call is what is known of it. -/
structure Matches (tool : Tool) (id : String) (call : Call) : Prop where
  id : tool.id = .str id
  name : tool.name = .str call.name
  arguments : tool.arguments = call.arguments
  started : tool.started = call.started
  stopped : tool.stopped = call.stopped
  silent : tool.started = false → call.emitted = ""

/-- The state of the converter, when the calls and their indices are known. -/
structure Follows (state : State) (ids : List Json) (at_index : Int → Option String)
    (calls : String → Call) : Prop where
  keys : state.tracked_tool_calls.keys = ids
  tools : ∀ id tool, state.tracked_tool_calls.get? (.str id) = some tool → Matches tool id (calls id)
  texts : ∀ id tool, state.tracked_tool_calls.get? (.str id) = some tool → tool.started = true →
    tool.block_index < state.current_block_index ∧
      argumentText state.yielded tool.block_index = (calls id).emitted
  apart : ∀ id other tool another, state.tracked_tool_calls.get? (.str id) = some tool →
    state.tracked_tool_calls.get? (.str other) = some another → tool.started = true →
      another.started = true → tool.block_index = another.block_index → id = other
  routes : ∀ index : Int, state.index_to_tool_id.get? (.num index) = (at_index index).map .str
  later : ∀ index : Int, state.current_block_index ≤ index → argumentText state.yielded index = ""
  blocks : ∀ index id name, Event.content_block_start index (.tool_use id name) ∈ state.yielded →
    ∃ key tool, id = .str key ∧ state.tracked_tool_calls.get? (.str key) = some tool ∧
      tool.started = true ∧ tool.block_index = index

def aside : Event → Bool
  | .content_block_start _ (.tool_use ..) | .content_block_delta _ (.input_json_delta _) => false
  | _ => true

theorem argumentText_append (first second : List Event) (index : Int) :
    argumentText (first ++ second) index = argumentText first index ++ argumentText second index := by
  simp [argumentText]

theorem argumentText_aside {events : List Event} (others : ∀ event ∈ events, aside event = true)
    (index : Int) : argumentText events index = "" := by
  have nothing : events.filterMap (fun
      | .content_block_delta at_index (.input_json_delta chunk) =>
        if at_index = index then some chunk else none
      | _ => none) = [] := by
    refine List.filterMap_eq_nil_iff.mpr fun event member => ?_
    have other := others event member
    split
    · cases other
    · rfl
  simp only [argumentText]
  rw [nothing]
  rfl

variable {runtime : Runtime} {state : State} {ids : List Json} {at_index : Int → Option String}
  {calls : String → Call}

theorem Follows.aside (follows : Follows state ids at_index calls) {next : State} {added : List Event}
    (tools : next.tracked_tool_calls = state.tracked_tool_calls)
    (routes : next.index_to_tool_id = state.index_to_tool_id)
    (further : state.current_block_index ≤ next.current_block_index)
    (yielded : next.yielded = state.yielded ++ added)
    (others : ∀ event ∈ added, Anthropic.aside event = true) : Follows next ids at_index calls := by
  have text : ∀ index, argumentText next.yielded index = argumentText state.yielded index := by
    intro index
    rw [yielded, argumentText_append, argumentText_aside others, String.append_empty]
  refine ⟨tools ▸ follows.keys, tools ▸ follows.tools, ?_, tools ▸ follows.apart,
    routes ▸ follows.routes, ?_, ?_⟩
  · intro id tool found started
    rw [tools] at found
    obtain ⟨before, same⟩ := follows.texts id tool found started
    exact ⟨by omega, (text _).trans same⟩
  · intro index beyond
    exact (text index).trans (follows.later index (by omega))
  · intro index id name member
    rw [yielded, List.mem_append] at member
    rw [tools]
    rcases member with member | member
    · exact follows.blocks index id name member
    · cases others _ member

theorem Follows.change (follows : Follows state ids at_index calls) {key : String} {tool changed : Tool}
    (found : state.tracked_tool_calls.get? (.str key) = some tool) {next : State} {call : Call}
    {added : List Event} (keys : next.tracked_tool_calls.keys = state.tracked_tool_calls.keys)
    (tools : ∀ query, next.tracked_tool_calls.get? query =
      if .str key = query then some changed else state.tracked_tool_calls.get? query)
    (routes : next.index_to_tool_id = state.index_to_tool_id)
    (further : state.current_block_index ≤ next.current_block_index)
    (yielded : next.yielded = state.yielded ++ added) (known : Matches changed key call)
    (text : changed.started = true → changed.block_index < next.current_block_index ∧
      argumentText next.yielded changed.block_index = call.emitted)
    (kept : tool.started = true → changed.started = true ∧ changed.block_index = tool.block_index)
    (fresh : tool.started = false → changed.started = true →
      changed.block_index = state.current_block_index)
    (others : ∀ index, changed.started = true ∧ index = changed.block_index ∨
      argumentText added index = "")
    (starts : ∀ index id name, Event.content_block_start index (.tool_use id name) ∈ added →
      id = .str key ∧ changed.started = true ∧ changed.block_index = index) :
    Follows next ids at_index (Function.update calls key call) := by
  have stored : ∀ {id : String} {query : Tool}, next.tracked_tool_calls.get? (.str id) = some query →
      id = key ∧ query = changed ∨
        id ≠ key ∧ state.tracked_tool_calls.get? (.str id) = some query := by
    intro id query here
    rw [tools] at here
    split at here
    · rename_i same
      exact .inl ⟨(Json.str.inj same).symm, (Option.some.inj here).symm⟩
    · rename_i different
      exact .inr ⟨fun same => different (by rw [same]), here⟩
  -- The block of another call is neither an earlier one of this call nor the next free one.
  have apart : ∀ {id : String} {query : Tool}, id ≠ key →
      state.tracked_tool_calls.get? (.str id) = some query → query.started = true →
        changed.started = true → query.block_index ≠ changed.block_index := by
    intro id query different here open_query open_changed same
    cases before : tool.started with
    | true =>
      exact different (follows.apart id key query tool here found open_query before
        (same.trans (kept before).2))
    | false =>
      have below := (follows.texts id query here open_query).1
      rw [same, fresh before open_changed] at below
      omega
  refine ⟨keys.trans follows.keys, fun id query here => ?_, fun id query here started => ?_,
    fun id other query another here there first second same => ?_,
    fun index => by rw [routes]; exact follows.routes index, fun index beyond => ?_,
    fun index id name member => ?_⟩
  · rcases stored here with ⟨rfl, rfl⟩ | ⟨different, here⟩
    · rwa [Function.update_self]
    · rw [Function.update_of_ne different]
      exact follows.tools id query here
  · rcases stored here with ⟨rfl, rfl⟩ | ⟨different, here⟩
    · rw [Function.update_self]
      exact text started
    · obtain ⟨below, same⟩ := follows.texts id query here started
      rw [Function.update_of_ne different, yielded, argumentText_append, same]
      refine ⟨by omega, ?_⟩
      rcases others query.block_index with ⟨open_changed, equal⟩ | nothing
      · exact absurd equal (apart different here started open_changed)
      · rw [nothing, String.append_empty]
  · rcases stored here with ⟨rfl, rfl⟩ | ⟨different, here⟩ <;>
      rcases stored there with ⟨rfl, rfl⟩ | ⟨distinct, there⟩
    · rfl
    · exact absurd same.symm (apart distinct there second first)
    · exact absurd same (apart different here first second)
    · exact follows.apart id other query another here there first second same
  · rw [yielded, argumentText_append, follows.later index (by omega)]
    rcases others index with ⟨open_changed, rfl⟩ | nothing
    · have below := (text open_changed).1
      omega
    · rw [nothing, String.append_empty]
  · rw [yielded, List.mem_append] at member
    rcases member with member | member
    · obtain ⟨other, query, rfl, here, started, same⟩ := follows.blocks index id name member
      by_cases equal : other = key
      · subst equal
        obtain rfl := Option.some.inj (found.symm.trans here)
        obtain ⟨still, block⟩ := kept started
        exact ⟨other, changed, rfl, by rw [tools, if_pos rfl], still, block.trans same⟩
      · refine ⟨other, query, rfl, ?_, started, same⟩
        rw [tools, if_neg fun same => equal (Json.str.inj same).symm]
        exact here
    · obtain ⟨rfl, started, same⟩ := starts index id name member
      exact ⟨key, changed, rfl, by rw [tools, if_pos rfl], started, same⟩

theorem get?_changeTool {key : String} {tool : Tool} (change : Tool → Tool)
    (found : state.tracked_tool_calls.get? (.str key) = some tool) (query : Json) :
    (state.changeTool (.str key) change).tracked_tool_calls.get? query =
      if .str key = query then some (change tool) else state.tracked_tool_calls.get? query := by
  rw [State.changeTool, Dict.get?_modify]
  split
  · rename_i same
    rw [← same, found]
    rfl
  · rfl

theorem Follows.changeTool (follows : Follows state ids at_index calls) {key : String} {tool : Tool}
    (found : state.tracked_tool_calls.get? (.str key) = some tool) {change : Tool → Tool} {call : Call}
    (known : Matches (change tool) key call) (started : (change tool).started = tool.started)
    (block : (change tool).block_index = tool.block_index) (emitted : call.emitted = (calls key).emitted) :
    Follows (state.changeTool (.str key) change) ids at_index (Function.update calls key call) := by
  refine follows.change found (Dict.keys_modify _ _ _) (get?_changeTool change found) rfl le_rfl
    (List.append_nil _).symm known (fun open_tool => ?_) (fun open_tool => ⟨started ▸ open_tool, block⟩)
    (fun closed open_tool => ?_) (fun _ => .inr rfl) nofun
  · rw [block, emitted]
    exact follows.texts key tool found (started ▸ open_tool)
  · rw [started, closed] at open_tool
    cases open_tool

theorem Follows.track (follows : Follows state ids at_index calls) {key : String} (name : String)
    (fresh : Json.str key ∉ ids) :
    Follows { state with
        tracked_tool_calls := state.tracked_tool_calls.set (.str key)
          ⟨.str key, .str name, "", -1, false, false⟩ }
      (ids ++ [.str key]) at_index (Function.update calls key { name }) := by
  have unknown : Json.str key ∉ state.tracked_tool_calls.keys := follows.keys ▸ fresh
  have stored : ∀ {id : String} {query : Tool}, (state.tracked_tool_calls.set (.str key)
      ⟨.str key, .str name, "", -1, false, false⟩).get? (.str id) = some query →
      id = key ∧ query = ⟨.str key, .str name, "", -1, false, false⟩ ∨
        id ≠ key ∧ state.tracked_tool_calls.get? (.str id) = some query := by
    intro id query here
    rw [Dict.get?_set] at here
    split at here
    · rename_i same
      exact .inl ⟨(Json.str.inj same).symm, (Option.some.inj here).symm⟩
    · rename_i different
      exact .inr ⟨fun same => different (by rw [same]), here⟩
  refine ⟨?_, fun id query here => ?_, fun id query here started => ?_,
    fun id other query another here there first second same => ?_, follows.routes, follows.later,
    fun index id block_name member => ?_⟩
  · rw [← follows.keys]
    exact Dict.keys_set_of_fresh unknown _
  · rcases stored here with ⟨rfl, rfl⟩ | ⟨different, here⟩
    · rw [Function.update_self]
      exact ⟨rfl, rfl, rfl, rfl, rfl, fun _ => rfl⟩
    · rw [Function.update_of_ne different]
      exact follows.tools id query here
  · rcases stored here with ⟨rfl, rfl⟩ | ⟨different, here⟩
    · cases started
    · rw [Function.update_of_ne different]
      exact follows.texts id query here started
  · rcases stored here with ⟨rfl, rfl⟩ | ⟨different, here⟩
    · cases first
    · rcases stored there with ⟨rfl, rfl⟩ | ⟨distinct, there⟩
      · cases second
      · exact follows.apart id other query another here there first second same
  · obtain ⟨other, query, rfl, here, rest⟩ := follows.blocks index id block_name member
    refine ⟨other, query, rfl, ?_, rest⟩
    rw [Dict.get?_set, if_neg]
    · exact here
    · intro same
      exact unknown (same ▸ Dict.mem_keys_of_get? here)

theorem Follows.route (follows : Follows state ids at_index calls) (key : String) (index : Int) :
    Follows { state with index_to_tool_id := state.index_to_tool_id.set (.num index) (.str key) } ids
      (fun query => if index = query then some key else at_index query) calls where
  keys := follows.keys
  tools := follows.tools
  texts := follows.texts
  apart := follows.apart
  later := follows.later
  blocks := follows.blocks
  routes := by
    intro query
    rw [Dict.get?_set, follows.routes]
    by_cases same : index = query
    · simp [same]
    · have different : ¬ Json.num index = .num query := by simpa using same
      rw [if_neg different, if_neg same]

theorem callIds_append (log : Log) (key : String) (delta : ToolDelta) :
    callIds (log ++ [(key, delta)]) =
      if .str key ∈ callIds log then callIds log else callIds log ++ [.str key] := by
  rw [callIds, List.foldl_append]
  rfl

theorem callAt_append (log : Log) (key : String) (delta : ToolDelta) (index : Int) :
    callAt (log ++ [(key, delta)]) index = if delta.index = index then some key else callAt log index := by
  unfold callAt
  rw [List.reverse_append, List.reverse_singleton, List.singleton_append, List.find?_cons]
  by_cases same : delta.index = index <;> simp [same]

theorem mem_callIds {log : Log} {key : String} {delta : ToolDelta} (member : (key, delta) ∈ log) :
    Json.str key ∈ callIds log := by
  induction log using List.reverseRecOn with
  | nil => cases member
  | append_singleton log entry ih =>
    rw [callIds_append]
    rcases List.mem_append.mp member with earlier | last
    · split
      · exact ih earlier
      · exact List.mem_append_left _ (ih earlier)
    · obtain rfl := List.mem_singleton.mp last
      split
      · assumption
      · simp

theorem callAt_mem {log : Log} {index : Int} {key : String} (found : callAt log index = some key) :
    Json.str key ∈ callIds log := by
  obtain ⟨entry, here, rfl⟩ := Option.map_eq_some_iff.mp found
  exact mem_callIds (List.mem_reverse.mp (List.mem_of_find?_eq_some here))

theorem run_bind {α β : Type} {program : Converter α} {next : α → Converter β} {before after : State}
    {value : α} {result : Except PyError β × State} (ran : program before = (.ok value, after))
    (rest : next value after = result) : (program >>= next) before = result :=
  (Program.bind_ok ran).trans rest

theorem resolve_follows (fresh : ∀ tracked, Json.str (runtime.fallback_id tracked) ∉ tracked)
    {log : Log} (follows : Follows state (callIds log) (callAt log) calls) (delta : ToolDelta) :
    ∃ next, resolve runtime (.num delta.index) (.str delta.id) (.str delta.name) state =
        (.ok (.str (routeOf runtime log delta)), next) ∧
      Follows next (callIds (log ++ [(routeOf runtime log delta, delta)]))
        (callAt (log ++ [(routeOf runtime log delta, delta)]))
        (if .str (routeOf runtime log delta) ∈ callIds log then calls
          else Function.update calls (routeOf runtime log delta) { name := delta.name }) := by
  have begun : ∀ key, Json.str key ∉ callIds log → Follows
      { state with
        tracked_tool_calls := state.tracked_tool_calls.set (.str key)
          ⟨.str key, .str delta.name, "", -1, false, false⟩
        index_to_tool_id := state.index_to_tool_id.set (.num delta.index) (.str key) }
      (callIds (log ++ [(key, delta)])) (callAt (log ++ [(key, delta)]))
      (Function.update calls key { name := delta.name }) := by
    intro key unknown
    have both := (follows.track delta.name unknown).route key delta.index
    rw [callIds_append, if_neg unknown, funext (callAt_append log key delta)]
    exact both
  have again : ∀ key, Json.str key ∈ callIds log → Follows
      { state with index_to_tool_id := state.index_to_tool_id.set (.num delta.index) (.str key) }
      (callIds (log ++ [(key, delta)])) (callAt (log ++ [(key, delta)])) calls := by
    intro key known
    rw [callIds_append, if_pos known, funext (callAt_append log key delta)]
    exact follows.route key delta.index
  have tracked : ∀ key, (state.tracked_tool_calls.get? (.str key)).isNone =
      decide (Json.str key ∉ callIds log) := by
    intro key
    rw [← follows.keys]
    cases found : state.tracked_tool_calls.get? (.str key) with
    | none => exact (decide_eq_true (Dict.get?_eq_none.mp found)).symm
    | some tool => exact (decide_eq_false fun unknown => unknown (Dict.mem_keys_of_get? found)).symm
  unfold resolve
  by_cases given : delta.id = ""
  · rw [if_neg (by simp [given]), Program.bind_ok (show (Program.ofExcept (asKey (.num delta.index)) :
      Converter Json) state = (.ok (.num delta.index), state) from rfl),
      Program.bind_ok (show (Program.get : Converter State) state = (.ok state, state) from rfl), follows.routes]
    cases before : callAt log delta.index with
    | some key =>
      have same : routeOf runtime log delta = key := by simp [routeOf, given, before]
      have known := callAt_mem before
      have unchanged : callAt (log ++ [(key, delta)]) = callAt log := by
        funext index
        rw [callAt_append]
        split
        · rename_i equal
          rw [← equal, before]
        · rfl
      rw [same]
      refine ⟨state, rfl, ?_⟩
      rw [if_pos known, callIds_append, if_pos known, unchanged]
      exact follows
    | none =>
      have same : routeOf runtime log delta = runtime.fallback_id (callIds log) := by
        simp [routeOf, given, before]
      rw [same, if_neg (fresh _)]
      refine ⟨_, ?_, begun _ (fresh _)⟩
      dsimp only [Option.map_none]
      rw [follows.keys]
      rfl
  · have same : routeOf runtime log delta = delta.id := if_neg given
    rw [same, if_pos (by simpa using given), Program.bind_ok (show (Program.ofExcept (asKey (.str delta.id)) :
      Converter Json) state = (.ok (.str delta.id), state) from rfl),
      Program.bind_ok (show (Program.get : Converter State) state = (.ok state, state) from rfl), tracked]
    by_cases known : Json.str delta.id ∈ callIds log
    · rw [if_pos known, decide_eq_false (not_not.mpr known)]
      exact ⟨_, rfl, again _ known⟩
    · rw [if_neg known, decide_eq_true known]
      exact ⟨_, rfl, begun _ known⟩

theorem toolOf_known {key : Json} {tool : Tool} (found : state.tracked_tool_calls.get? key = some tool) :
    toolOf key state = (.ok tool, state) := by
  unfold toolOf
  rw [Program.bind_ok (show (Program.get : Converter State) state = (.ok state, state) from rfl), found]
  rfl

theorem name_follows {key : String} (follows : Follows state ids at_index calls) {tool : Tool}
    (found : state.tracked_tool_calls.get? (.str key) = some tool) (name : String) :
    ∃ next, (Program.onlyIf ((Json.str name).truthy && !tool.name.truthy)
        (Program.modify (fun state => state.changeTool (.str key) (fun tool =>
          { tool with name := .str name }))) : Converter Unit) state = (.ok (), next) ∧
      Follows next ids at_index (Function.update calls key
        { calls key with name := if (calls key).name = "" then name else (calls key).name }) := by
  have known := follows.tools key tool found
  rw [known.name, Json.truthy_str, Json.truthy_str]
  by_cases brings : name ≠ "" ∧ (calls key).name = ""
  · obtain ⟨brings, unnamed⟩ := brings
    rw [decide_eq_true brings, unnamed, if_pos rfl]
    refine ⟨_, rfl, follows.changeTool found ⟨known.id, rfl, known.arguments, known.started, known.stopped,
      known.silent⟩ rfl rfl rfl⟩
  · have kept : { calls key with name := if (calls key).name = "" then name else (calls key).name } =
        calls key := by
      by_cases unnamed : (calls key).name = ""
      · have none : name = "" := by
          by_contra filled
          exact brings ⟨filled, unnamed⟩
        rw [if_pos unnamed, none, ← unnamed]
      · rw [if_neg unnamed]
    refine ⟨state, ?_, by rw [kept, Function.update_eq_self]; exact follows⟩
    have off : (decide (name ≠ "") && !decide ((calls key).name ≠ "")) = false := by
      simpa using brings
    rw [off]
    rfl

theorem start_follows {key : String} (follows : Follows state ids at_index calls) {tool : Tool}
    (found : state.tracked_tool_calls.get? (.str key) = some tool) :
    ∃ next, (Program.onlyIf (!tool.started && tool.name.truthy)
        (Program.modify (fun state => { state.startTool (.str key) tool with has_tool_calls := true })) :
          Converter Unit) state = (.ok (), next) ∧
      Follows next ids at_index (Function.update calls key
        { calls key with started := (calls key).started || decide ((calls key).name ≠ "") }) := by
  have known := follows.tools key tool found
  rw [known.name, Json.truthy_str, known.started]
  by_cases begins : (calls key).started = false ∧ (calls key).name ≠ ""
  · obtain ⟨closed, named⟩ := begins
    rw [closed, decide_eq_true named]
    have closed_tool : tool.started = false := known.started.trans closed
    refine ⟨_, rfl, follows.change found (Dict.keys_modify _ _ _)
      (get?_changeTool (fun tool =>
        { tool with block_index := state.current_block_index, started := true }) found) rfl
      (Nat.le_succ state.current_block_index) rfl
      ⟨known.id, known.name, known.arguments, rfl, known.stopped, nofun⟩ (fun _ => ⟨?_, ?_⟩)
      (fun open_tool => ?_) (fun _ _ => rfl) (fun _ => .inr rfl) fun index id name member => ?_⟩
    · exact Int.ofNat_lt.mpr (Nat.lt_succ_self _)
    · have text := argumentText_append state.yielded
        [.content_block_start state.current_block_index (.tool_use tool.id tool.name)]
        state.current_block_index
      rw [follows.later _ le_rfl] at text
      exact text.trans (known.silent closed_tool).symm
    · rw [closed_tool] at open_tool
      cases open_tool
    · obtain ⟨rfl, rfl, rfl⟩ : index = state.current_block_index ∧ id = tool.id ∧ name = tool.name := by
        simpa using member
      exact ⟨known.id, rfl, rfl⟩
  · have kept : ((calls key).started || decide ((calls key).name ≠ "")) = (calls key).started := by
      cases started : (calls key).started with
      | true => rfl
      | false => exact decide_eq_false fun named => begins ⟨started, named⟩
    refine ⟨state, ?_, by rw [kept, Function.update_eq_self]; exact follows⟩
    have off : (!(calls key).started && decide ((calls key).name ≠ "")) = false := by
      simpa using begins
    rw [off]
    rfl

theorem Follows.keep (follows : Follows state ids at_index calls) {key : String} {tool : Tool}
    (found : state.tracked_tool_calls.get? (.str key) = some tool) (chunk : String) :
    Follows (state.changeTool (.str key) (fun tool => { tool with arguments := tool.arguments ++ chunk }))
      ids at_index (Function.update calls key
        { calls key with arguments := (calls key).arguments ++ chunk }) := by
  have known := follows.tools key tool found
  exact follows.changeTool found ⟨known.id, known.name, congrArg (· ++ chunk) known.arguments,
    known.started, known.stopped, known.silent⟩ rfl rfl rfl

/-- What is passed on of a call is yielded in its block alone. -/
theorem Follows.pass (follows : Follows state ids at_index calls) {key : String} {tool : Tool}
    (found : state.tracked_tool_calls.get? (.str key) = some tool) (opened : tool.started = true)
    (chunk : String) :
    Follows (state.yield (.content_block_delta tool.block_index (.input_json_delta chunk))) ids at_index
      (Function.update calls key { calls key with emitted := (calls key).emitted ++ chunk }) := by
  have known := follows.tools key tool found
  obtain ⟨below, passed⟩ := follows.texts key tool found opened
  refine follows.change found rfl (fun query => ?_) rfl le_rfl rfl ⟨known.id, known.name, known.arguments,
    known.started, known.stopped, fun closed => nomatch opened.symm.trans closed⟩ (fun _ => ⟨below, ?_⟩)
    (fun _ => ⟨opened, rfl⟩) (fun closed => nomatch opened.symm.trans closed) (fun index => ?_) (by simp)
  · split
    · rename_i same
      exact same ▸ found
    · rfl
  · have text := argumentText_append state.yielded
      [.content_block_delta tool.block_index (.input_json_delta chunk)] tool.block_index
    rw [passed] at text
    refine text.trans (congrArg _ ?_)
    simp [argumentText]
  · by_cases same : index = tool.block_index
    · exact .inl ⟨opened, same⟩
    · exact .inr (by simp [argumentText, Ne.symm same])

theorem Follows.stop (follows : Follows state ids at_index calls) {key : String} {tool : Tool}
    (found : state.tracked_tool_calls.get? (.str key) = some tool) (opened : tool.started = true) :
    Follows ((state.changeTool (.str key) (fun tool => { tool with stopped := true })).yield
        (.content_block_stop tool.block_index)) ids at_index
      (Function.update calls key { calls key with stopped := true }) := by
  have known := follows.tools key tool found
  obtain ⟨below, passed⟩ := follows.texts key tool found opened
  refine follows.change found (Dict.keys_modify _ _ _)
    (get?_changeTool (fun tool => { tool with stopped := true }) found) rfl le_rfl rfl
    ⟨known.id, known.name, known.arguments, known.started, rfl,
      fun closed => nomatch opened.symm.trans closed⟩ (fun _ => ⟨below, ?_⟩) (fun _ => ⟨opened, rfl⟩)
    (fun closed => nomatch opened.symm.trans closed) (fun _ => .inr rfl) (by simp)
  exact (argumentText_append _ _ _).trans (String.append_empty.trans passed)

/-- The block is stopped when the arguments that are kept are complete. -/
theorem stop_follows (decides : ∀ text, runtime.loads text ≠ .error .other) {key : String}
    (follows : Follows state ids at_index calls) {tool : Tool}
    (found : state.tracked_tool_calls.get? (.str key) = some tool) (opened : tool.started = true)
    (going : tool.stopped = false) :
    ∃ next, stopTool runtime (.str key) tool state = (.ok (), next) ∧
      Follows next ids at_index (Function.update calls key
        { calls key with stopped := complete runtime tool.arguments }) := by
  unfold stopTool complete
  cases loaded : runtime.loads tool.arguments with
  | ok value => exact ⟨_, rfl, follows.stop found opened⟩
  | error error =>
    have same : ({ calls key with stopped := false } : Call) = calls key := by
      rw [← going, (follows.tools key tool found).stopped]
    cases error with
    | other => exact absurd loaded (decides _)
    | _ => exact ⟨state, rfl, by rw [same, Function.update_eq_self]; exact follows⟩

/-- A piece of the arguments is kept, and passed on while the block is open. -/
theorem take_follows (decides : ∀ text, runtime.loads text ≠ .error .other) {key : String}
    (follows : Follows state ids at_index calls) {tool : Tool}
    (found : state.tracked_tool_calls.get? (.str key) = some tool) (chunk : String) :
    ∃ next, (Program.onlyIf (Json.str chunk).truthy (takeArguments runtime (.str key) (.str chunk)) :
        Converter Unit) state = (.ok (), next) ∧
      Follows next ids at_index (Function.update calls key
        (if chunk ≠ "" ∧ (calls key).started = true ∧ (calls key).stopped = false then
          { calls key with
            arguments := (calls key).arguments ++ chunk
            stopped := complete runtime ((calls key).arguments ++ chunk)
            emitted := (calls key).emitted ++ chunk }
        else { calls key with arguments := (calls key).arguments ++ chunk })) := by
  have known := follows.tools key tool found
  rw [Json.truthy_str]
  by_cases silent : chunk = ""
  · refine ⟨state, by rw [decide_eq_false (not_not.mpr silent)]; rfl, ?_⟩
    rw [if_neg (fun all => all.1 silent), silent, String.append_empty, Function.update_eq_self]
    exact follows
  · rw [decide_eq_true silent]
    have kept := follows.keep found chunk
    have stored := get?_changeTool (fun tool => { tool with arguments := tool.arguments ++ chunk }) found
      (.str key)
    rw [if_pos rfl] at stored
    by_cases passes : (calls key).started = true ∧ (calls key).stopped = false
    · obtain ⟨started, going⟩ := passes
      rw [if_pos ⟨silent, started, going⟩]
      have opened : tool.started = true := known.started.trans started
      have still : tool.stopped = false := known.stopped.trans going
      have passed := kept.pass stored opened chunk
      obtain ⟨next, ran, last⟩ := stop_follows decides passed stored opened still
      refine ⟨next, run_bind rfl (run_bind (toolOf_known stored) ?_), ?_⟩
      · dsimp only
        rw [opened, still]
        exact run_bind rfl ran
      · simpa only [Function.update_idem, Function.update_self, known.arguments] using last
    · rw [if_neg fun all => passes all.2]
      refine ⟨_, run_bind rfl (run_bind (toolOf_known stored) ?_), kept⟩
      dsimp only
      have off : (tool.started && !tool.stopped) = false := by
        rw [known.started, known.stopped]
        simpa using passes
      rw [off]
      rfl

def callsOf (runtime : Runtime) (log : Log) (id : String) : Call := callOf runtime (piecesOf log id)

theorem callsOf_append (log : Log) (key : String) (delta : ToolDelta) :
    callsOf runtime (log ++ [(key, delta)]) =
      Function.update (callsOf runtime log) key ((callsOf runtime log key).take runtime delta) := by
  funext id
  by_cases same : id = key
  · subst same
    simp [callsOf, callOf, piecesOf, List.foldl_append]
  · rw [Function.update_of_ne same]
    simp [callsOf, piecesOf, Ne.symm same]

theorem callsOf_unknown {log : Log} {key : String} (unknown : Json.str key ∉ callIds log) :
    callsOf runtime log key = {} := by
  have none : piecesOf log key = [] := by
    rw [piecesOf, List.map_eq_nil_iff, List.filter_eq_nil_iff]
    rintro ⟨id, delta⟩ member same
    obtain rfl : id = key := by simpa using same
    exact unknown (mem_callIds member)
  rw [callsOf, none]
  rfl

theorem readToolCall_toJson (delta : ToolDelta) :
    readToolCall runtime delta.toJson = (do
      let key ← resolve runtime (.num delta.index) (.str delta.id) (.str delta.name)
      let tool ← toolOf key
      Program.onlyIf ((Json.str delta.name).truthy && !tool.name.truthy)
        (Program.modify (fun state => state.changeTool key (fun tool =>
          { tool with name := .str delta.name })))
      let tool ← toolOf key
      Program.onlyIf (!tool.started && tool.name.truthy)
        (Program.modify (fun state => { state.startTool key tool with has_tool_calls := true }))
      Program.onlyIf (Json.str delta.arguments).truthy
        (takeArguments runtime key (.str delta.arguments))) := by
  have field : ∀ key default, getOf delta.toJson key default =
      .ok (getFieldD [("index", .num delta.index), ("id", .str delta.id), ("function",
        .obj [("name", .str delta.name), ("arguments", .str delta.arguments)])] key default) :=
    fun _ _ => rfl
  unfold readToolCall
  simp only [field]
  rfl

theorem readToolCall_follows (fresh : ∀ tracked, Json.str (runtime.fallback_id tracked) ∉ tracked)
    (decides : ∀ text, runtime.loads text ≠ .error .other) {log : Log}
    (follows : Follows state (callIds log) (callAt log) (callsOf runtime log)) (delta : ToolDelta) :
    ∃ next, readToolCall runtime delta.toJson state = (.ok (), next) ∧
      Follows next (callIds (log ++ [(routeOf runtime log delta, delta)]))
        (callAt (log ++ [(routeOf runtime log delta, delta)]))
        (callsOf runtime (log ++ [(routeOf runtime log delta, delta)])) := by
  rw [readToolCall_toJson, callsOf_append]
  obtain ⟨first, resolved, begun⟩ := resolve_follows fresh follows delta
  generalize routeOf runtime log delta = key at resolved begun ⊢
  have present : ∀ {state ids at_index calls}, Follows state ids at_index calls →
      ids = callIds (log ++ [(key, delta)]) →
        ∃ tool, state.tracked_tool_calls.get? (.str key) = some tool := by
    intro state ids at_index calls follows same
    refine Dict.exists_of_mem_keys ?_
    rw [follows.keys, same]
    exact mem_callIds (List.mem_append_right _ (List.mem_singleton.mpr rfl))
  obtain ⟨tool, found⟩ := present begun rfl
  obtain ⟨second, named_ran, named⟩ := name_follows begun found delta.name
  obtain ⟨named_tool, named_found⟩ := present named rfl
  obtain ⟨third, started_ran, started⟩ := start_follows named named_found
  obtain ⟨started_tool, started_found⟩ := present started rfl
  obtain ⟨last, taken_ran, taken⟩ := take_follows decides started started_found delta.arguments
  refine ⟨last, ?_, ?_⟩
  · exact run_bind resolved (run_bind (toolOf_known found) (run_bind named_ran
      (run_bind (toolOf_known named_found) (run_bind started_ran taken_ran))))
  · simp only [Function.update_idem, Function.update_self] at taken
    by_cases known : Json.str key ∈ callIds log
    · rw [if_pos known] at taken
      exact taken
    · rw [if_neg known, Function.update_self, Function.update_idem] at taken
      rw [callsOf_unknown known]
      convert taken using 2
      simp [Call.take]

/-- What happens beside the tool calls. -/
structure Beside (state next : State) : Prop where
  tools : next.tracked_tool_calls = state.tracked_tool_calls
  routes : next.index_to_tool_id = state.index_to_tool_id
  further : state.current_block_index ≤ next.current_block_index
  yielded : ∃ added, next.yielded = state.yielded ++ added ∧ ∀ event ∈ added, aside event = true

theorem Beside.refl (state : State) : Beside state state :=
  ⟨rfl, rfl, le_rfl, [], (List.append_nil _).symm, nofun⟩

theorem Beside.trans {first second third : State} (one : Beside first second)
    (two : Beside second third) : Beside first third := by
  obtain ⟨added, same, others⟩ := one.yielded
  obtain ⟨more, again, further⟩ := two.yielded
  refine ⟨two.tools.trans one.tools, two.routes.trans one.routes, one.further.trans two.further,
    added ++ more, by rw [again, same, List.append_assoc], fun event member => ?_⟩
  exact (List.mem_append.mp member).elim (others event) (further event)

theorem Beside.yield (state : State) {event : Event} (other : aside event = true) :
    Beside state (state.yield event) :=
  ⟨rfl, rfl, le_rfl, [event], rfl, fun _ member => List.mem_singleton.mp member ▸ other⟩

theorem Follows.beside (follows : Follows state ids at_index calls) {next : State}
    (beside : Beside state next) : Follows next ids at_index calls := by
  obtain ⟨added, yielded, others⟩ := beside.yielded
  exact follows.aside beside.tools beside.routes beside.further yielded others

theorem beside_closeThinking (state : State) : Beside state state.closeThinking := by
  unfold State.closeThinking
  split
  · exact ⟨rfl, rfl, Nat.le_succ _, [.content_block_stop state.current_block_index], rfl, by simp [aside]⟩
  · exact .refl state

theorem beside_closeText (state : State) : Beside state state.closeText := by
  unfold State.closeText
  split
  · exact ⟨rfl, rfl, Nat.le_succ _, [.content_block_stop state.current_block_index], rfl, by simp [aside]⟩
  · exact .refl state

theorem beside_takeReasoning (reasoning_content : Json) (state : State) :
    Beside state (state.takeReasoning reasoning_content) := by
  unfold State.takeReasoning
  split
  · unfold State.think
    split
    · exact .yield _ rfl
    · refine Beside.trans ?_ (.yield _ rfl)
      exact ⟨rfl, rfl, le_rfl, [.content_block_start state.current_block_index .thinking], rfl,
        by simp [aside]⟩
  · exact .refl state

theorem beside_takeContent (content : Json) (state : State) :
    Beside state (state.takeContent content) := by
  unfold State.takeContent
  split
  · unfold State.write
    refine (beside_closeThinking state).trans ?_
    dsimp only
    split
    · exact .yield _ rfl
    · refine Beside.trans ?_ (.yield _ rfl)
      exact ⟨rfl, rfl, le_rfl, [.content_block_start state.closeThinking.current_block_index .text], rfl,
        by simp [aside]⟩
  · exact .refl state

/-- What the converter knows once some pieces have been routed. -/
def Knows (runtime : Runtime) (log : Log) (state : State) : Prop :=
  Follows state (callIds log) (callAt log) (callsOf runtime log)

def routedFrom (runtime : Runtime) (log : Log) (deltas : List ToolDelta) : Log :=
  deltas.foldl (fun log delta => log ++ [(routeOf runtime log delta, delta)]) log

theorem readToolCalls_knows (fresh : ∀ tracked, Json.str (runtime.fallback_id tracked) ∉ tracked)
    (decides : ∀ text, runtime.loads text ≠ .error .other) {log : Log} (knows : Knows runtime log state)
    (deltas : List ToolDelta) :
    ∃ next, Program.each (readToolCall runtime) (deltas.map ToolDelta.toJson) state = (.ok (), next) ∧
      Knows runtime (routedFrom runtime log deltas) next := by
  induction deltas generalizing log state with
  | nil => exact ⟨state, rfl, knows⟩
  | cons delta rest ih =>
    obtain ⟨next, ran, after⟩ := readToolCall_follows fresh decides knows delta
    obtain ⟨last, rest_ran, known⟩ := ih after
    exact ⟨last, by rw [List.map_cons, Program.each, Program.bind_ok ran, rest_ran], known⟩

theorem reasoningOf_delta (delta : OpenAIDelta) :
    ∃ value, reasoningOf delta.deltaJson (.obj []) = .ok value := by
  by_cases thinks : delta.reasoning_content = ""
  · exact ⟨.null, by unfold OpenAIDelta.deltaJson; rw [thinks]; rfl⟩
  · refine ⟨.str delta.reasoning_content, ?_⟩
    have truthy : (Json.str delta.reasoning_content).truthy = true := by simpa using thinks
    change (do
      let found ← (if (Json.str delta.reasoning_content).truthy = true then
        Except.ok (Json.str delta.reasoning_content) else _)
      _ : Except PyError Json) = _
    rw [if_pos truthy]
    exact if_pos truthy

theorem toolCallsOf_delta (delta : OpenAIDelta) :
    toolCallsOf delta.deltaJson (.obj []) = .ok (.arr (delta.tool_calls.map ToolDelta.toJson)) := by
  unfold OpenAIDelta.deltaJson
  cases delta.tool_calls <;> rfl

theorem beside_readUsageData (usage : Option (Nat × Nat)) (state : State) :
    ∃ next, readUsageData (usageJson usage) state = (.ok (), next) ∧ Beside state next := by
  rcases usage with _ | ⟨prompt, completion⟩
  · exact ⟨state, rfl, .refl state⟩
  · exact ⟨_, rfl, rfl, rfl, le_rfl, [], (List.append_nil _).symm, nofun⟩

theorem beside_readFinishReason (finish_reason : Option String) (state : State) :
    ∃ next, readFinishReason ((finish_reason.map Json.str).getD .null) state = (.ok (), next) ∧
      Beside state next := by
  rcases finish_reason with _ | reason
  · exact ⟨state, rfl, .refl state⟩
  · exact ⟨_, rfl, rfl, rfl, le_rfl, [], (List.append_nil _).symm, nofun⟩

theorem computed {α : Type} {value : Except PyError α} {known : α} (same : value = .ok known)
    (state : State) : (Program.ofExcept value : Converter α) state = (.ok known, state) := by
  rw [same]
  rfl

theorem readData_knows (fresh : ∀ tracked, Json.str (runtime.fallback_id tracked) ∉ tracked)
    (decides : ∀ text, runtime.loads text ≠ .error .other) {log : Log} (knows : Knows runtime log state)
    (delta : OpenAIDelta) :
    ∃ next, readData runtime delta.toJson state = (.ok (), next) ∧
      Knows runtime (routedFrom runtime log delta.tool_calls) next := by
  obtain ⟨counted, counted_ran, beside⟩ := beside_readUsageData delta.usage state
  obtain ⟨value, reasoned⟩ := reasoningOf_delta delta
  have written : Knows runtime log
      ((counted.takeReasoning value).takeContent (.str delta.content)) :=
    knows.beside (beside.trans ((beside_takeReasoning value counted).trans (beside_takeContent _ _)))
  have called : ∃ next, readToolCalls runtime (.arr (delta.tool_calls.map ToolDelta.toJson))
      ((counted.takeReasoning value).takeContent (.str delta.content)) = (.ok (), next) ∧
        Knows runtime (routedFrom runtime log delta.tool_calls) next := by
    generalize (counted.takeReasoning value).takeContent (.str delta.content) = now at written ⊢
    cases calls : delta.tool_calls with
    | nil => exact ⟨now, rfl, written⟩
    | cons call rest =>
      obtain ⟨next, ran, after⟩ := readToolCalls_knows fresh decides
        (written.beside ((beside_closeThinking now).trans (beside_closeText _))) (call :: rest)
      exact ⟨next, ran, after⟩
  obtain ⟨reached, called_ran, after⟩ := called
  obtain ⟨last, finished, beside⟩ := beside_readFinishReason delta.finish_reason reached
  refine ⟨last, ?_, after.beside beside⟩
  have choice : readChoice runtime (.obj [("delta", delta.deltaJson),
      ("finish_reason", (delta.finish_reason.map Json.str).getD .null)]) counted = (.ok (), last) := by
    refine run_bind rfl (run_bind rfl (run_bind rfl ?_))
    refine run_bind (computed reasoned _) (run_bind rfl (run_bind rfl (run_bind rfl ?_)))
    exact run_bind (computed (toolCallsOf_delta delta) _) (run_bind called_ran finished)
  exact run_bind rfl (run_bind counted_ran (run_bind rfl choice))

/-- The chunk is read as a delta. -/
def Carries (runtime : Runtime) (chunk : Chunk) (delta : OpenAIDelta) : Prop :=
  ∀ state, readChunk runtime chunk state = readData runtime delta.toJson state

theorem readChunks_knows (fresh : ∀ tracked, Json.str (runtime.fallback_id tracked) ∉ tracked)
    (decides : ∀ text, runtime.loads text ≠ .error .other) {log : Log} (knows : Knows runtime log state)
    {chunks : List Chunk} {deltas : List OpenAIDelta}
    (carried : List.Forall₂ (Carries runtime) chunks deltas) :
    ∃ next, Program.each (readChunk runtime) chunks state = (.ok (), next) ∧
      Knows runtime (routedFrom runtime log (deltas.flatMap OpenAIDelta.tool_calls)) next := by
  induction carried generalizing log state with
  | nil => exact ⟨state, rfl, knows⟩
  | @cons chunk delta chunks deltas carries _ ih =>
    obtain ⟨next, ran, after⟩ := readData_knows fresh decides knows delta
    obtain ⟨last, rest_ran, known⟩ := ih after
    refine ⟨last, ?_, ?_⟩
    · exact run_bind ((carries state).trans ran) rest_ran
    · rw [List.flatMap_cons, routedFrom, List.foldl_append]
      exact known

theorem start_knows : Knows runtime [] (start runtime) := by
  refine ⟨rfl, nofun, nofun, nofun, fun _ => rfl, fun _ _ => rfl, fun index id name member => ?_⟩
  simp [start] at member

theorem callIds_str {log : Log} {key : Json} (member : key ∈ callIds log) : ∃ id, key = .str id := by
  induction log using List.reverseRecOn with
  | nil => cases member
  | append_singleton log entry ih =>
    rw [callIds_append] at member
    split at member
    · exact ih member
    · rcases List.mem_append.mp member with earlier | last
      · exact ih earlier
      · exact ⟨entry.1, List.mem_singleton.mp last⟩

theorem Knows.flushTool {log : Log} (knows : Knows runtime log state) (key : Json) :
    state.flushTool key = state := by
  unfold State.flushTool
  split
  · rfl
  · rename_i tool found
    obtain ⟨id, rfl⟩ := callIds_str (knows.keys ▸ Dict.mem_keys_of_get? found)
    have known := knows.tools id tool found
    have same : (!tool.started && tool.name.truthy) = false := by
      rw [known.started, known.name, Json.truthy_str, callsOf, callOf_started]
      exact Bool.not_and_self _
    rw [same]
    rfl

theorem beside_closeTools (tools : List Tool) (state : State) :
    Beside state (tools.foldl State.closeTool state) := by
  induction tools generalizing state with
  | nil => exact .refl state
  | cons tool rest ih =>
    refine Beside.trans ?_ (ih _)
    unfold State.closeTool
    split
    · exact .yield state rfl
    · exact .refl state

theorem Knows.finish {log : Log} (knows : Knows runtime log state) : Knows runtime log state.finish := by
  have thought : Knows runtime log state.closeThinking := knows.beside (beside_closeThinking state)
  have flushed : state.closeThinking.tracked_tool_calls.keys.foldl State.flushTool state.closeThinking =
      state.closeThinking := by
    induction state.closeThinking.tracked_tool_calls.keys with
    | nil => rfl
    | cons key rest ih => rw [List.foldl_cons, thought.flushTool, ih]
  unfold State.finish
  dsimp only
  rw [flushed]
  have ended : Beside state.closeThinking state.closeThinking.endText := by
    unfold State.endText
    split
    · exact .yield _ rfl
    · exact .refl _
  refine thought.beside (ended.trans ((beside_closeTools _ _).trans (Beside.trans (.yield _ ?_) (.yield _ ?_))))
  · rfl
  · rfl

/-- A call's block passes on all the text up to the one that completes it exactly when none of it came
before the name, but for a text that is complete before the name and is repeated after it. -/
theorem openai_stream_to_anthropic_stream_arguments_iff
    (fresh : ∀ tracked, Json.str (runtime.fallback_id tracked) ∉ tracked)
    (decides : ∀ text, runtime.loads text ≠ .error .other) {chunks : List Chunk}
    {deltas : List OpenAIDelta} (carried : List.Forall₂ (Carries runtime) chunks deltas) (index : Int)
    (id name : Json) (started : .content_block_start index (.tool_use id name) ∈
      openai_stream_to_anthropic_stream runtime chunks) :
    ∃ call, id = .str call ∧
      let pieces := piecesOf (routed runtime (deltas.flatMap OpenAIDelta.tool_calls)) call
      argumentText (openai_stream_to_anthropic_stream runtime chunks) index =
          upToComplete runtime "" pieces ↔ NameFirst pieces ∨ Repeats runtime pieces := by
  obtain ⟨last, ran, known⟩ := readChunks_knows fresh decides start_knows carried
  have events : openai_stream_to_anthropic_stream runtime chunks = last.finish.yielded := by
    rw [openai_stream_to_anthropic_stream, ran]
  rw [events] at started ⊢
  obtain ⟨call, tool, same, found, open_tool, rfl⟩ := known.finish.blocks index id name started
  refine ⟨call, same, ?_⟩
  dsimp only
  rw [(known.finish.texts call tool found open_tool).2]
  exact emitted_whole_iff _

end Follow

section Sample

theorem each_last (turn : Converter Unit) (state : State) :
    (turn >>= fun _ => (pure () : Converter Unit)) state = turn state := by
  rcases ran : turn state with ⟨error | value, next⟩
  · exact Program.bind_error ran
  · exact Program.bind_ok ran

/-- `{"choices":[{"delta":{"tool_calls":[{…}]}}]}`. -/
def pieceText (piece : String) : String :=
  "\x7b\"choices\":[\x7b\"delta\":\x7b\"tool_calls\":[\x7b" ++ piece ++ "\x7d]\x7d\x7d]\x7d"

def wholeText : String :=
  pieceText "\"id\":\"call_1\",\"function\":\x7b\"name\":\"now\",\"arguments\":\"\x7b\x7d\"\x7d"

def wholeData : Json := chunkOf [("tool_calls", .arr [.obj [("id", .str "call_1"),
  ("function", .obj [("name", .str "now"), ("arguments", .str "\x7b\x7d")])]])]

def callText : String := pieceText "\"id\":\"call_1\",\"function\":\x7b\"arguments\":\"\x7b\"\x7d"

def callData : Json := chunkOf [("tool_calls", .arr [.obj [("id", .str "call_1"),
  ("function", .obj [("arguments", .str "\x7b")])]])]

def nameText : String := pieceText "\"function\":\x7b\"name\":\"now\",\"arguments\":\"\x7d\"\x7d"

def nameData : Json := chunkOf [("tool_calls", .arr [.obj [
  ("function", .obj [("name", .str "now"), ("arguments", .str "\x7d")])]])]

def pieceLoads (text : String) : Except LoadError Json :=
  if text = "\x7b\x7d" then .ok (.obj [])
  else if text = wholeText then .ok wholeData
  else if text = callText then .ok callData
  else if text = nameText then .ok nameData
  else .error .jsonDecodeError

def pieceRuntime : Runtime := { sampleRuntime with loads := pieceLoads }

theorem pieceRuntime_decides (text : String) : pieceRuntime.loads text ≠ .error .other := by
  change pieceLoads text ≠ _
  unfold pieceLoads
  split_ifs <;> exact nofun

def pieceChunk (text : String) : Chunk := .text ("data: " ++ text ++ "\n\n").toList

theorem carries_piece {text : String} {data : Json} {delta : OpenAIDelta}
    (reads : Text.split '\n' (Text.strip ("data: " ++ text ++ "\n\n").toList) = [("data: " ++ text).toList] ∧
      Text.strip ("data: " ++ text).toList = ("data: " ++ text).toList ∧
      "data:".toList.isPrefixOf ("data: " ++ text).toList = true ∧
      String.ofList (Text.strip (("data: " ++ text).toList.drop 5)) = text ∧
      ¬ (text = "[DONE]" ∨ text = "\x7b\x7d")) (loads : pieceRuntime.loads text = .ok data)
    (same : readData pieceRuntime data = readData pieceRuntime delta.toJson) :
    Carries pieceRuntime (pieceChunk text) delta := by
  obtain ⟨lines, stripped, starts, string, more⟩ := reads
  intro state
  have read : readLine pieceRuntime ("data: " ++ text).toList = readData pieceRuntime delta.toJson := by
    rw [readLine]
    dsimp only
    rw [stripped, starts, string, if_neg more, loads]
    exact same
  rw [pieceChunk, readChunk, lines, Program.each, read]
  exact each_last (readData pieceRuntime delta.toJson) state

def wholeDelta : OpenAIDelta := { tool_calls := [⟨0, "call_1", "now", "\x7b\x7d"⟩] }

def callDelta : OpenAIDelta := { tool_calls := [⟨0, "call_1", "", "\x7b"⟩] }

def nameDelta : OpenAIDelta := { tool_calls := [⟨0, "", "now", "\x7d"⟩] }

theorem pieceLoads_whole : pieceRuntime.loads wholeText = .ok wholeData := by
  change pieceLoads wholeText = _
  rw [pieceLoads, if_neg (by decide), if_pos rfl]

theorem pieceLoads_call : pieceRuntime.loads callText = .ok callData := by
  change pieceLoads callText = _
  rw [pieceLoads, if_neg (by decide), if_neg (by decide +kernel), if_pos rfl]

theorem pieceLoads_name : pieceRuntime.loads nameText = .ok nameData := by
  change pieceLoads nameText = _
  rw [pieceLoads, if_neg (by decide), if_neg (by decide +kernel), if_neg (by decide +kernel),
    if_pos rfl]

theorem events_of_carries {runtime : Runtime} {chunks : List Chunk} {deltas : List OpenAIDelta}
    (carried : List.Forall₂ (Carries runtime) chunks deltas) :
    openai_stream_to_anthropic_stream runtime chunks =
      (Program.each (fun delta : OpenAIDelta => readData runtime delta.toJson) deltas
        (start runtime)).2.finish.yielded := by
  have same : ∀ state, Program.each (readChunk runtime) chunks state =
      Program.each (fun delta : OpenAIDelta => readData runtime delta.toJson) deltas state := by
    induction carried with
    | nil => exact fun _ => rfl
    | @cons chunk delta chunks deltas carries _ ih =>
      intro state
      rw [Program.each, Program.each]
      rcases ran : readData runtime delta.toJson state with ⟨error | value, next⟩
      · rw [Program.bind_error ran, Program.bind_error ((carries state).trans ran)]
      · rw [Program.bind_ok ran, Program.bind_ok ((carries state).trans ran), ih]
  rw [openai_stream_to_anthropic_stream, same]

theorem carries_whole : List.Forall₂ (Carries pieceRuntime) [pieceChunk wholeText] [wholeDelta] :=
  .cons (carries_piece (by decide +kernel) pieceLoads_whole rfl) .nil

theorem carries_late :
    List.Forall₂ (Carries pieceRuntime) [pieceChunk callText, pieceChunk nameText] [callDelta, nameDelta] :=
  .cons (carries_piece (by decide) pieceLoads_call rfl)
    (.cons (carries_piece (by decide) pieceLoads_name rfl) .nil)

theorem whole_call_passed_on :
    ∃ call, Json.str "call_1" = .str call ∧
      let pieces := piecesOf (routed pieceRuntime ([wholeDelta].flatMap OpenAIDelta.tool_calls)) call
      argumentText (openai_stream_to_anthropic_stream pieceRuntime [pieceChunk wholeText]) 0 =
          upToComplete pieceRuntime "" pieces ↔ NameFirst pieces ∨ Repeats pieceRuntime pieces :=
  openai_stream_to_anthropic_stream_arguments_iff sampleId_fresh pieceRuntime_decides carries_whole 0
    (.str "call_1") (.str "now") (by rw [events_of_carries carries_whole]; decide +kernel)

theorem text_before_name_lost :
    let events := openai_stream_to_anthropic_stream pieceRuntime [pieceChunk callText, pieceChunk nameText]
    List.Forall₂ (Carries pieceRuntime) [pieceChunk callText, pieceChunk nameText] [callDelta, nameDelta] ∧
      .content_block_start 0 (.tool_use (.str "call_1") (.str "now")) ∈ events ∧
      argumentText events 0 = "\x7d" ∧
      upToComplete pieceRuntime "" (piecesOf (routed pieceRuntime
        ([callDelta, nameDelta].flatMap OpenAIDelta.tool_calls)) "call_1") = "\x7b\x7d" := by
  refine ⟨carries_late, ?_, ?_, ?_⟩
  · rw [events_of_carries carries_late]
    decide +kernel
  · rw [events_of_carries carries_late]
    decide +kernel
  · decide +kernel

end Sample

end OpenWebui.Anthropic
