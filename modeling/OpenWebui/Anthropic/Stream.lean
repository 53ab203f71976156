import OpenWebui.Anthropic.Agreement
import OpenWebui.Base.FirstFree

/-! Whatever the lines are, and wherever reading them is broken off, the events of the converter
are well formed. -/

namespace OpenWebui.Anthropic

/-- The events after the first are accepted, and the memory agrees with the blocks they make. -/
def Sound (first : Event) (state : State) : Prop :=
  ∃ content blocks, state.yielded = first :: content ∧ reads content = some blocks ∧
    Agrees state.current_block_index state.thinking_block_open state.text_block_open
      state.tracked_tool_calls blocks

/-- Every tool call that has a name has been started. -/
def Settled (tools : Dict Json Tool) : Prop :=
  ∀ key tool, tools.get? key = some tool → tool.name.truthy = true → tool.started = true

/-- The state between the lines. -/
def Ready (first : Event) (state : State) : Prop :=
  Sound first state ∧ Settled state.tracked_tool_calls

/-- The state between the tool calls of a line: no prose is open. -/
def Quiet (first : Event) (state : State) : Prop :=
  Sound first state ∧ state.thinking_block_open = false ∧ state.text_block_open = false

/-- The state in which reading may end. -/
def Ended (first : Event) (state : State) : Prop :=
  Sound first state ∧ (state.text_block_open = true → Settled state.tracked_tool_calls)

variable {first : Event} {state : State}

theorem Ready.ended (ready : Ready first state) : Ended first state :=
  ⟨ready.1, fun _ => ready.2⟩

theorem Quiet.ended (quiet : Quiet first state) : Ended first state :=
  ⟨quiet.1, fun opened => by rw [quiet.2.2] at opened; cases opened⟩

section Steps

theorem sound_of_accept {next : State} {content : List Event} {blocks after : Blocks}
    {event : Event} (before : state.yielded = first :: content)
    (read : reads content = some blocks) (accepted : accept blocks event = some after)
    (yielded : next.yielded = state.yielded ++ [event])
    (agrees : Agrees next.current_block_index next.thinking_block_open next.text_block_open
      next.tracked_tool_calls after) : Sound first next :=
  ⟨content ++ [event], after, by rw [yielded, before]; rfl, reads_concat.mpr ⟨blocks, read, accepted⟩,
    agrees⟩

theorem Sound.closeThinking (sound : Sound first state) : Sound first state.closeThinking := by
  rw [State.closeThinking]
  split
  · rename_i up
    obtain ⟨content, blocks, yielded, read, agrees⟩ := sound
    have down := agrees.one_flag up
    obtain ⟨block, stored, next⟩ := agrees.stop_prose (by simp [up])
    refine sound_of_accept yielded read (accept_stop.mpr ⟨_, rfl, block, stored, rfl⟩) rfl ?_
    dsimp only [State.yield]
    rwa [down]
  · exact sound

theorem closeThinking_thinking : state.closeThinking.thinking_block_open = false := by
  rw [State.closeThinking]
  split
  · rfl
  · rename_i down
    simpa using down

@[simp] theorem closeThinking_text :
    state.closeThinking.text_block_open = state.text_block_open := by
  rw [State.closeThinking]
  split <;> rfl

@[simp] theorem closeThinking_tools :
    state.closeThinking.tracked_tool_calls = state.tracked_tool_calls := by
  rw [State.closeThinking]
  split <;> rfl

theorem Sound.closeText (sound : Sound first state) (down : state.thinking_block_open = false) :
    Quiet first state.closeText := by
  rw [State.closeText]
  split
  · rename_i up
    obtain ⟨content, blocks, yielded, read, agrees⟩ := sound
    obtain ⟨block, stored, next⟩ := agrees.stop_prose (by simp [up])
    refine ⟨sound_of_accept yielded read (accept_stop.mpr ⟨_, rfl, block, stored, rfl⟩) rfl ?_,
      down, rfl⟩
    dsimp only [State.yield]
    rwa [down]
  · rename_i closed
    exact ⟨sound, down, by simpa using closed⟩

@[simp] theorem closeText_tools :
    state.closeText.tracked_tool_calls = state.tracked_tool_calls := by
  rw [State.closeText]
  split <;> rfl

theorem Sound.prose_delta (sound : Sound first state) {block : Block} {delta : Delta}
    (opened : ∀ content blocks, state.yielded = first :: content → reads content = some blocks →
      Agrees state.current_block_index state.thinking_block_open state.text_block_open
        state.tracked_tool_calls blocks →
      blocks[state.current_block_index]? = some (block, true))
    (takes : block.takes delta = true) :
    Sound first (state.yield (.content_block_delta state.current_block_index delta)) := by
  obtain ⟨content, blocks, yielded, read, agrees⟩ := sound
  have stored := opened content blocks yielded read agrees
  exact sound_of_accept yielded read
    (accept_delta.mpr ⟨⟨_, rfl, block, stored, takes⟩, rfl⟩) rfl agrees

theorem Sound.think (sound : Sound first state) (down : state.text_block_open = false)
    (reasoning_content : Json) : Sound first (state.think reasoning_content) := by
  rw [State.think]
  have opened : ∀ state : State, Sound first state → state.thinking_block_open = true →
      Sound first (state.yield (.content_block_delta state.current_block_index
        (.thinking_delta reasoning_content))) := by
    intro state sound up
    exact sound.prose_delta (fun _ _ _ _ agrees => agrees.thinks up) rfl
  split
  · rename_i up
    exact opened state sound up
  · rename_i closed
    refine opened _ ?_ rfl
    obtain ⟨content, blocks, yielded, read, agrees⟩ := sound
    have closed : state.thinking_block_open = false := by simpa using closed
    rw [closed, down] at agrees
    have index : blocks.length = state.current_block_index := by simpa using agrees.length
    refine sound_of_accept yielded read
      (accept_start.mpr ⟨by rw [index], agrees.no_prose, rfl⟩) rfl ?_
    dsimp only [State.yield]
    rw [down]
    exact agrees.start_prose rfl (fun _ => rfl) (by simp)

theorem Sound.write (sound : Sound first state) (content : Json) :
    Sound first (state.write content) := by
  rw [State.write]
  have opened : ∀ state : State, Sound first state → state.text_block_open = true →
      Sound first (state.yield (.content_block_delta state.current_block_index
        (.text_delta content))) := by
    intro state sound up
    exact sound.prose_delta (fun _ _ _ _ agrees => agrees.writes up) rfl
  have silent := @closeThinking_thinking state
  have closed_sound := sound.closeThinking
  dsimp only
  split
  · rename_i up
    exact opened _ closed_sound up
  · rename_i closed
    refine opened _ ?_ rfl
    obtain ⟨events, blocks, yielded, read, agrees⟩ := closed_sound
    have closed : state.closeThinking.text_block_open = false := by simpa using closed
    rw [closed, silent] at agrees
    have index : blocks.length = state.closeThinking.current_block_index := by
      simpa using agrees.length
    refine sound_of_accept yielded read
      (accept_start.mpr ⟨by rw [index], agrees.no_prose, rfl⟩) rfl ?_
    dsimp only [State.yield]
    rw [silent]
    exact agrees.start_prose rfl (by simp) (fun _ => rfl)

@[simp] theorem think_tools (reasoning_content : Json) :
    (state.think reasoning_content).tracked_tool_calls = state.tracked_tool_calls := by
  rw [State.think]
  split <;> rfl

@[simp] theorem write_tools (content : Json) :
    (state.write content).tracked_tool_calls = state.tracked_tool_calls := by
  rw [State.write]
  dsimp only
  split <;> exact closeThinking_tools

theorem Quiet.startTool (quiet : Quiet first state) {key : Json} {tool : Tool}
    (tracked : state.tracked_tool_calls.get? key = some tool) (unstarted : tool.started = false) :
    Quiet first (state.startTool key tool) := by
  obtain ⟨⟨content, blocks, yielded, read, agrees⟩, silent, closed⟩ := quiet
  rw [silent, closed] at agrees
  have index : blocks.length = state.current_block_index := by simpa using agrees.length
  refine ⟨sound_of_accept yielded read
    (accept_start.mpr ⟨by rw [index], agrees.no_prose, rfl⟩) rfl ?_, silent, closed⟩
  dsimp only [State.startTool, State.changeTool, State.yield]
  rw [silent, closed]
  exact agrees.start_tool tracked unstarted tool.id tool.name

theorem Quiet.pass (quiet : Quiet first state) {key : Json} {tool : Tool}
    (tracked : state.tracked_tool_calls.get? key = some tool) (opened : tool.isOpen = true)
    (chunk : String) :
    Quiet first (state.yield (.content_block_delta tool.block_index (.input_json_delta chunk))) := by
  obtain ⟨⟨content, blocks, yielded, read, agrees⟩, silent, closed⟩ := quiet
  obtain ⟨i, index, _, id, name, stored⟩ := agrees.tool_open key tool tracked opened
  exact ⟨sound_of_accept yielded read
    (accept_delta.mpr ⟨⟨i, index, _, stored, rfl⟩, rfl⟩) rfl agrees, silent, closed⟩

theorem Quiet.stopTool (quiet : Quiet first state) {key : Json} {tool : Tool}
    (tracked : state.tracked_tool_calls.get? key = some tool) (opened : tool.isOpen = true) :
    Quiet first ((state.changeTool key (fun tool => { tool with stopped := true })).yield
      (.content_block_stop tool.block_index)) := by
  obtain ⟨⟨content, blocks, yielded, read, agrees⟩, silent, closed⟩ := quiet
  obtain ⟨i, block, index, stored, next⟩ := agrees.stop_tool tracked opened
  exact ⟨sound_of_accept yielded read
    (accept_stop.mpr ⟨i, index, block, stored, rfl⟩) rfl next, silent, closed⟩

theorem Quiet.changeTool (quiet : Quiet first state) (key : Json) {change : Tool → Tool}
    (same : ∀ tool, (change tool).block_index = tool.block_index ∧
      (change tool).started = tool.started ∧ (change tool).stopped = tool.stopped) :
    Quiet first (state.changeTool key change) := by
  obtain ⟨⟨content, blocks, yielded, read, agrees⟩, silent, closed⟩ := quiet
  exact ⟨⟨content, blocks, yielded, read, agrees.change_tool key same⟩, silent, closed⟩

end Steps

section ToolCalls

open Program

variable {runtime : Runtime}

/-- Every tool call but one that has a name has been started. -/
def SettledBut (tools : Dict Json Tool) (left : Json) : Prop :=
  ∀ key tool, tools.get? key = some tool → tool.name.truthy = true →
    tool.started = true ∨ key = left

theorem Settled.but {tools : Dict Json Tool} (settled : Settled tools) (left : Json) :
    SettledBut tools left := fun key tool tracked named => Or.inl (settled key tool tracked named)

/-- The state between the tool calls of a line. -/
def Waiting (first : Event) (state : State) : Prop :=
  Quiet first state ∧ Settled state.tracked_tool_calls

/-- The state in which a tool call is taken up. -/
def Taking (first : Event) (key : Json) (state : State) : Prop :=
  Quiet first state ∧ SettledBut state.tracked_tool_calls key

theorem track_triple {key id name : Json} :
    Triple (fun state => Waiting first state ∧ state.tracked_tool_calls.get? key = none)
      (track key id name) (fun _ => Taking first key) (Quiet first) := by
  apply Triple.modify
  rintro state ⟨⟨⟨⟨content, blocks, yielded, read, agrees⟩, silent, closed⟩, settled⟩, fresh⟩
  refine ⟨⟨⟨content, blocks, yielded, read, agrees.track fresh rfl rfl⟩, silent, closed⟩, ?_⟩
  intro other tool tracked named
  dsimp only at tracked
  rw [Dict.get?_set] at tracked
  split at tracked
  · rename_i same
    exact Or.inr same.symm
  · exact Or.inl (settled other tool tracked named)

theorem route_triple {key index id : Json} :
    Triple (Taking first key) (route index id) (fun _ => Taking first key) (Quiet first) := by
  apply Triple.bind (Triple.compute _ (fun _ taking => taking.1))
  intro _
  exact Triple.modify (fun _ taking => taking)

theorem Waiting.quiet (waiting : Waiting first state) : Quiet first state := waiting.1

theorem resolve_triple (fresh : ∀ tracked, Json.str (runtime.fallback_id tracked) ∉ tracked)
    (index id name : Json) :
    Triple (Waiting first) (resolve runtime index id name) (Taking first) (Quiet first) := by
  have routed (key known_index known_id : Json) :
      Triple (Taking first key) (do route known_index known_id; pure key) (Taking first)
        (Quiet first) := by
    apply Triple.bind route_triple
    intro _
    exact Triple.pure (fun _ taking => taking)
  rw [resolve]
  split
  · apply Triple.bind (Triple.compute _ (fun _ => Waiting.quiet))
    intro key
    apply Triple.get
    intro seen
    refine Triple.bind ?_ (fun _ => routed key index id)
    apply Triple.onlyIf
    · intro untracked
      apply Triple.strengthen track_triple
      rintro state ⟨waiting, rfl⟩
      exact ⟨waiting, by simpa using untracked⟩
    · rintro _ state ⟨waiting, _⟩
      exact ⟨waiting.1, waiting.2.but key⟩
  · apply Triple.bind (Triple.compute _ (fun _ => Waiting.quiet))
    intro known_index
    apply Triple.get
    intro seen
    split
    · apply Triple.ofExcept
      · rintro key _ state ⟨waiting, _⟩
        exact ⟨waiting.1, waiting.2.but key⟩
      · rintro state ⟨waiting, _⟩
        exact waiting.1
    · refine Triple.bind ?_ (fun _ => routed _ index _)
      apply Triple.strengthen track_triple
      rintro state ⟨waiting, rfl⟩
      exact ⟨waiting, Dict.get?_eq_none.mpr (fresh _)⟩

theorem toolOf_triple {before raised : State → Prop} {key : Json}
    (implies : ∀ state, before state → raised state) :
    Triple before (toolOf key)
      (fun tool state => before state ∧ state.tracked_tool_calls.get? key = some tool) raised := by
  apply Triple.get
  intro seen
  split
  · rename_i tool found
    apply Triple.pure
    rintro state ⟨holds, rfl⟩
    exact ⟨holds, found⟩
  · apply Triple.raise
    rintro state ⟨holds, _⟩
    exact implies state holds

theorem Settled.changeTool {tools : Dict Json Tool} (settled : Settled tools) (key : Json)
    {change : Tool → Tool} (same : ∀ tool, (change tool).name = tool.name ∧
      (change tool).started = tool.started) : Settled (tools.modify key change) := by
  intro other tool tracked named
  rcases Dict.get?_modify_cases tracked with ⟨_, before, stored, rfl⟩ | ⟨_, stored⟩
  · rw [(same before).1] at named
    rw [(same before).2]
    exact settled other before stored named
  · exact settled other tool stored named

theorem stopTool_triple {key : Json} {tool : Tool} (opened : tool.isOpen = true) :
    Triple (fun state => Waiting first state ∧ state.tracked_tool_calls.get? key = some tool)
      (stopTool runtime key tool) (fun _ => Waiting first) (Quiet first) := by
  rw [stopTool]
  split
  · apply Triple.modify
    rintro state ⟨⟨quiet, settled⟩, tracked⟩
    exact ⟨quiet.stopTool tracked opened, settled.changeTool key (fun _ => ⟨rfl, rfl⟩)⟩
  · exact Triple.pure (fun _ holds => holds.1)
  · exact Triple.pure (fun _ holds => holds.1)
  · exact Triple.raise (fun _ holds => holds.1.1)

theorem takeArguments_triple (key arguments_chunk : Json) :
    Triple (Waiting first) (takeArguments runtime key arguments_chunk) (fun _ => Waiting first)
      (Quiet first) := by
  cases arguments_chunk with
  | str chunk =>
    have kept : Triple (Waiting first)
        (Program.modify (fun state : State => state.changeTool key (fun tool =>
          { tool with arguments := tool.arguments ++ chunk })) : Converter Unit)
        (fun _ => Waiting first) (Quiet first) := by
      apply Triple.modify
      rintro state ⟨quiet, settled⟩
      exact ⟨quiet.changeTool key (fun _ => ⟨rfl, rfl, rfl⟩),
        settled.changeTool key (fun _ => ⟨rfl, rfl⟩)⟩
    apply Triple.bind kept
    intro _
    have known : Triple (Waiting first) (toolOf key)
        (fun tool state => Waiting first state ∧ state.tracked_tool_calls.get? key = some tool)
        (Quiet first) := toolOf_triple (fun _ => Waiting.quiet)
    apply Triple.bind known
    intro tool
    apply Triple.onlyIf
    · intro opened
      have passed : Triple
          (fun state => Waiting first state ∧ state.tracked_tool_calls.get? key = some tool)
          (Program.modify (fun state : State => state.yield
            (.content_block_delta tool.block_index (.input_json_delta chunk))) : Converter Unit)
          (fun _ state => Waiting first state ∧ state.tracked_tool_calls.get? key = some tool)
          (Quiet first) := by
        apply Triple.modify
        rintro state ⟨⟨quiet, settled⟩, tracked⟩
        exact ⟨⟨quiet.pass tracked opened chunk, settled⟩, tracked⟩
      exact Triple.bind passed (fun _ => stopTool_triple opened)
    · exact fun _ _ holds => holds.1
  | _ => exact Triple.raise (fun _ => Waiting.quiet)

theorem startTool_triple {key : Json} {tool : Tool} :
    Triple (fun state => Taking first key state ∧ state.tracked_tool_calls.get? key = some tool)
      (Program.onlyIf (!tool.started && tool.name.truthy) (Program.modify (fun state : State =>
        { state.startTool key tool with has_tool_calls := true })) : Converter Unit)
      (fun _ => Waiting first) (Quiet first) := by
  apply Triple.onlyIf
  · intro start
    have unstarted : tool.started = false := by
      rw [Bool.and_eq_true] at start
      simpa using start.1
    apply Triple.modify
    rintro state ⟨⟨quiet, settled⟩, tracked⟩
    refine ⟨quiet.startTool tracked unstarted, ?_⟩
    intro other another found named
    dsimp only [State.startTool, State.changeTool, State.yield] at found
    rcases Dict.get?_modify_cases found with ⟨_, before, _, rfl⟩ | ⟨apart, stored⟩
    · rfl
    · exact (settled other another stored named).resolve_right (fun same => apart same.symm)
  · rintro idle state ⟨⟨quiet, settled⟩, tracked⟩
    refine ⟨quiet, fun other another found named => ?_⟩
    rcases settled other another found named with started | rfl
    · exact started
    · rw [tracked] at found
      obtain rfl := Option.some.inj found
      simpa [named] using idle

theorem readToolCall_triple (fresh : ∀ tracked, Json.str (runtime.fallback_id tracked) ∉ tracked)
    (tool_call : Json) :
    Triple (Waiting first) (readToolCall runtime tool_call) (fun _ => Waiting first)
      (Quiet first) := by
  have computed {α : Type} (value : Except PyError α) :
      Triple (Waiting first) (Program.ofExcept value : Converter α) (fun _ => Waiting first)
        (Quiet first) := Triple.compute value (fun _ => Waiting.quiet)
  have known (key : Json) : Triple (Taking first key) (toolOf key)
      (fun tool state => Taking first key state ∧ state.tracked_tool_calls.get? key = some tool)
      (Quiet first) := toolOf_triple (fun _ taking => taking.1)
  apply Triple.bind (computed _)
  intro tool_call_index
  apply Triple.bind (computed _)
  intro tool_call_id
  apply Triple.bind (computed _)
  intro function
  apply Triple.bind (computed _)
  intro tool_call_name
  apply Triple.bind (computed _)
  intro arguments_chunk
  apply Triple.bind (resolve_triple fresh tool_call_index tool_call_id tool_call_name)
  intro key
  apply Triple.bind (known key)
  intro unnamed
  have named : Triple
      (fun state => Taking first key state ∧ state.tracked_tool_calls.get? key = some unnamed)
      (Program.onlyIf (tool_call_name.truthy && !unnamed.name.truthy)
        (Program.modify (fun state : State => state.changeTool key (fun tool =>
          { tool with name := tool_call_name }))) : Converter Unit)
      (fun _ => Taking first key) (Quiet first) := by
    apply Triple.onlyIf
    · intro _
      apply Triple.modify
      rintro state ⟨⟨quiet, settled⟩, _⟩
      refine ⟨quiet.changeTool key (fun _ => ⟨rfl, rfl, rfl⟩), ?_⟩
      intro other another found named
      dsimp only [State.changeTool] at found
      rcases Dict.get?_modify_cases found with ⟨same, _⟩ | ⟨_, stored⟩
      · exact Or.inr same.symm
      · exact settled other another stored named
    · exact fun _ _ holds => holds.1
  apply Triple.bind named
  intro _
  apply Triple.bind (known key)
  intro tool
  apply Triple.bind startTool_triple
  intro _
  apply Triple.onlyIf
  · exact fun _ => takeArguments_triple key arguments_chunk
  · exact fun _ _ waiting => waiting

end ToolCalls

section Lines

open Program

variable {runtime : Runtime}

theorem Ready.take_reasoning (ready : Ready first state) (reasoning_content : Json) :
    Ready first (state.takeReasoning reasoning_content) := by
  rw [State.takeReasoning]
  split
  · rename_i open_to
    simp only [Bool.and_eq_true, Bool.not_eq_true'] at open_to
    refine ⟨ready.1.think open_to.1.2 reasoning_content, ?_⟩
    rw [think_tools]
    exact ready.2
  · exact ready

theorem Ready.take_content (ready : Ready first state) (content : Json) :
    Ready first (state.takeContent content) := by
  rw [State.takeContent]
  split
  · refine ⟨ready.1.write content, ?_⟩
    rw [write_tools]
    exact ready.2
  · exact ready

theorem readToolCalls_triple
    (fresh : ∀ tracked, Json.str (runtime.fallback_id tracked) ∉ tracked) (tool_calls : Json) :
    Triple (Ready first) (readToolCalls runtime tool_calls) (fun _ => Ready first)
      (Ended first) := by
  apply Triple.onlyIf
  · intro _
    have closed : Triple (Ready first)
        (Program.modify (fun state : State => state.closeThinking.closeText) : Converter Unit)
        (fun _ => Waiting first) (Ended first) := by
      apply Triple.modify
      intro state ready
      refine ⟨ready.1.closeThinking.closeText closeThinking_thinking, ?_⟩
      rw [closeText_tools, closeThinking_tools]
      exact ready.2
    apply Triple.bind closed
    intro _
    apply Triple.bind (Triple.compute _ (fun _ waiting => waiting.1.ended))
    intro items
    have all : Triple (Waiting first) (Program.each (readToolCall runtime) items)
        (fun _ => Waiting first) (Quiet first) :=
      Triple.each (fun item _ => readToolCall_triple fresh item)
    apply Triple.weaken (Triple.raising all (fun _ => Quiet.ended))
    exact fun _ _ waiting => ⟨waiting.1.1, waiting.2⟩
  · exact fun _ _ ready => ready

theorem ofExcept_triple {α : Type} (value : Except PyError α) :
    Triple (Ready first) (Program.ofExcept value : Converter α) (fun _ => Ready first)
      (Ended first) :=
  Triple.compute value (fun _ => Ready.ended)

theorem readChoice_triple (fresh : ∀ tracked, Json.str (runtime.fallback_id tracked) ∉ tracked)
    (choice : Json) :
    Triple (Ready first) (readChoice runtime choice) (fun _ => Ready first) (Ended first) := by
  apply Triple.bind (ofExcept_triple _)
  intro delta
  apply Triple.bind (ofExcept_triple _)
  intro finish_reason
  apply Triple.bind (ofExcept_triple _)
  intro given_message
  apply Triple.bind (ofExcept_triple _)
  intro reasoning_content
  have reasoned : Triple (Ready first)
      (Program.modify (State.takeReasoning reasoning_content) : Converter Unit)
      (fun _ => Ready first) (Ended first) :=
    Triple.modify (fun _ ready => Ready.take_reasoning ready reasoning_content)
  apply Triple.bind reasoned
  intro _
  apply Triple.bind (ofExcept_triple _)
  intro content
  have written : Triple (Ready first)
      (Program.modify (State.takeContent content) : Converter Unit)
      (fun _ => Ready first) (Ended first) :=
    Triple.modify (fun _ ready => Ready.take_content ready content)
  apply Triple.bind written
  intro _
  apply Triple.bind (ofExcept_triple _)
  intro tool_calls
  apply Triple.bind (readToolCalls_triple fresh tool_calls)
  intro _
  apply Triple.onlyIf
  · intro _
    apply Triple.bind (ofExcept_triple _)
    intro stop_reason
    exact Triple.modify (fun _ ready => ready)
  · exact fun _ _ ready => ready

theorem readData_triple (fresh : ∀ tracked, Json.str (runtime.fallback_id tracked) ∉ tracked)
    (data : Json) :
    Triple (Ready first) (readData runtime data) (fun _ => Ready first) (Ended first) := by
  apply Triple.bind (ofExcept_triple _)
  intro usage_data
  have counted : Triple (Ready first) (readUsageData usage_data) (fun _ => Ready first)
      (Ended first) := by
    cases usage_data with
    | obj fields =>
      apply Triple.bind (ofExcept_triple _)
      intro usage_input
      exact Triple.modify (fun _ ready => ready)
    | _ => exact Triple.pure (fun _ ready => ready)
  apply Triple.bind counted
  intro _
  apply Triple.bind (ofExcept_triple _)
  intro choices
  apply Triple.onlyIf
  · intro _
    apply Triple.bind (ofExcept_triple _)
    intro choice
    exact readChoice_triple fresh choice
  · exact fun _ _ ready => ready

theorem readLine_triple (fresh : ∀ tracked, Json.str (runtime.fallback_id tracked) ∉ tracked)
    (line : List Char) :
    Triple (Ready first) (readLine runtime line) (fun _ => Ready first) (Ended first) := by
  rw [readLine]
  dsimp only
  split
  · exact Triple.pure (fun _ ready => ready)
  · split
    · exact Triple.pure (fun _ ready => ready)
    · split
      · exact readData_triple fresh _
      · exact Triple.pure (fun _ ready => ready)
      · exact Triple.raise (fun _ => Ready.ended)

theorem readChunks_triple (fresh : ∀ tracked, Json.str (runtime.fallback_id tracked) ∉ tracked)
    (chunks : List Chunk) :
    Triple (Ready first) (Program.each (readChunk runtime) chunks) (fun _ => Ready first)
      (Ended first) := by
  apply Triple.each
  intro chunk _
  cases chunk with
  | text chunk => exact Triple.each (fun line _ => readLine_triple fresh line)
  | raises error => exact Triple.raise (fun _ => Ready.ended)

end Lines

section Finish

/-- The state after the block of thinking, and while tools are flushed. -/
def Flushing (first : Event) (state : State) : Prop :=
  Ended first state ∧ state.thinking_block_open = false

theorem Ended.flushing (ended : Ended first state) : Flushing first state.closeThinking := by
  refine ⟨⟨ended.1.closeThinking, ?_⟩, closeThinking_thinking⟩
  rw [closeThinking_text, closeThinking_tools]
  exact ended.2

theorem Flushing.flushTool (flushing : Flushing first state) (key : Json) :
    Flushing first (state.flushTool key) := by
  rw [State.flushTool]
  split
  · exact flushing
  · rename_i tool tracked
    split
    · rename_i start
      rw [Bool.and_eq_true] at start
      have unstarted : tool.started = false := by simpa using start.1
      -- A tool that has a name and no block is left only where no text is open.
      have closed : state.text_block_open = false := by
        by_contra up
        have started := flushing.1.2 (by simpa using up) key tool tracked start.2
        rw [unstarted] at started
        cases started
      have quiet : Quiet first state := ⟨flushing.1.1, flushing.2, closed⟩
      have begun := quiet.startTool tracked unstarted
      obtain ⟨⟨content, blocks, yielded, read, agrees⟩, _, _⟩ := quiet
      have running := agrees.unstarted key tool tracked unstarted
      have now : (state.startTool key tool).tracked_tool_calls.get? key =
          some { tool with block_index := (state.current_block_index : Nat), started := true } := by
        dsimp only [State.startTool, State.changeTool, State.yield]
        rw [Dict.get?_modify, if_pos rfl, tracked]
        rfl
      dsimp only
      split
      · have passed := begun.pass now (by simp [Tool.isOpen, running]) tool.arguments
        exact ⟨passed.ended, passed.2.1⟩
      · exact ⟨begun.ended, begun.2.1⟩
    · exact flushing

theorem Flushing.flush (flushing : Flushing first state) (keys : List Json) :
    Flushing first (keys.foldl State.flushTool state) := by
  induction keys generalizing state with
  | nil => exact flushing
  | cons key rest ih => exact ih (flushing.flushTool key)

/-- What is left open when the prose is closed: the blocks of tools. -/
def OnlyTools (first : Event) (tools : Dict Json Tool) (state : State) : Prop :=
  ∃ content blocks index, state.yielded = first :: content ∧ reads content = some blocks ∧
    Agrees index false false tools blocks

theorem Flushing.endText (flushing : Flushing first state) :
    OnlyTools first state.endText.tracked_tool_calls state.endText := by
  obtain ⟨⟨⟨content, blocks, yielded, read, agrees⟩, _⟩, silent⟩ := flushing
  rw [State.endText]
  split
  · rename_i up
    obtain ⟨block, stored, next⟩ := agrees.stop_prose (by simp [up])
    refine ⟨content ++ [.content_block_stop state.current_block_index],
      blocks.set state.current_block_index (block, false), state.current_block_index + 1, ?_, ?_,
      next⟩
    · dsimp only [State.yield]
      rw [yielded]
      rfl
    · exact reads_concat.mpr ⟨blocks, read, accept_stop.mpr ⟨_, rfl, block, stored, rfl⟩⟩
  · rename_i closed
    have closed : state.text_block_open = false := by simpa using closed
    rw [silent, closed] at agrees
    exact ⟨content, blocks, state.current_block_index, yielded, read, agrees⟩

theorem closeTools {entries : List (Json × Tool)} {tools : Dict Json Tool}
    (distinct : (entries.map Prod.fst).Nodup)
    (known : ∀ entry ∈ entries, tools.get? entry.1 = some entry.2)
    (left : ∀ key tool, tools.get? key = some tool → tool.isOpen = true → (key, tool) ∈ entries)
    (only : OnlyTools first tools state) :
    ∃ content blocks,
      ((entries.map Prod.snd).foldl State.closeTool state).yielded = first :: content ∧
        reads content = some blocks ∧ ∀ entry ∈ blocks, entry.2 = false := by
  induction entries generalizing tools state with
  | nil =>
    obtain ⟨content, blocks, index, yielded, read, agrees⟩ := only
    refine ⟨content, blocks, yielded, read, ?_⟩
    rintro ⟨block, opened⟩ member
    obtain ⟨i, stored⟩ := List.mem_iff_getElem?.mp member
    cases opened with
    | false => rfl
    | true =>
      have bound := (List.getElem?_eq_some_iff.mp stored).1
      rw [agrees.length] at bound
      obtain ⟨_, key, tool, tracked, tool_open, _⟩ :=
        agrees.held i block (by simpa using bound) stored
      exact absurd (left key tool tracked tool_open) List.not_mem_nil
  | cons entry rest ih =>
    obtain ⟨key, tool⟩ := entry
    rw [List.map_cons, List.nodup_cons] at distinct
    have tracked : tools.get? key = some tool := known (key, tool) (List.mem_cons_self ..)
    have elsewhere : ∀ other ∈ rest, key ≠ other.1 := by
      rintro other member rfl
      exact distinct.1 (List.mem_map.mpr ⟨other, member, rfl⟩)
    have known_rest : ∀ other ∈ rest, tools.get? other.1 = some other.2 :=
      fun other member => known other (List.mem_cons_of_mem _ member)
    rw [List.map_cons, List.foldl_cons, State.closeTool]
    split
    · rename_i opened
      obtain ⟨content, blocks, index, yielded, read, agrees⟩ := only
      obtain ⟨i, block, at_i, stored, next⟩ := agrees.stop_tool tracked opened
      refine @ih _ (tools.modify key (fun tool => { tool with stopped := true })) distinct.2
        ?_ ?_ ?_
      · intro other member
        rw [Dict.get?_modify, if_neg (elsewhere other member)]
        exact known_rest other member
      · intro other another found open_other
        rcases Dict.get?_modify_cases found with ⟨_, before, _, rfl⟩ | ⟨apart, stored⟩
        · simp [Tool.isOpen] at open_other
        · rcases List.mem_cons.mp (left other another stored open_other) with same | member
          · exact absurd (Prod.mk.inj same).1.symm apart
          · exact member
      · refine ⟨content ++ [.content_block_stop tool.block_index], _, index, ?_, ?_, next⟩
        · dsimp only [State.yield]
          rw [yielded]
          rfl
        · exact reads_concat.mpr ⟨blocks, read, accept_stop.mpr ⟨i, at_i, block, stored, rfl⟩⟩
    · rename_i closed
      refine ih distinct.2 known_rest ?_ only
      intro other another found open_other
      rcases List.mem_cons.mp (left other another found open_other) with same | member
      · obtain ⟨rfl, rfl⟩ := Prod.mk.inj same
        exact absurd open_other closed
      · exact member

theorem Ended.finish {id model : String} {input_tokens : Json}
    (ended : Ended (.message_start id model input_tokens) state) :
    WellFormed state.finish.yielded := by
  have flushed := ended.flushing.flush state.closeThinking.tracked_tool_calls.keys
  have only := flushed.endText
  obtain ⟨content, blocks, yielded, read, closed⟩ :=
    closeTools (Dict.keys_nodup _) (fun entry member => Dict.mem_entries_iff.mp member)
      (fun key tool tracked _ => Dict.mem_entries_iff.mpr tracked) only
  rw [State.finish]
  dsimp only [State.yield]
  rw [yielded]
  exact (wellFormedContent_of_reads read closed).message _ _ _ _ _

end Finish

theorem start_ready (runtime : Runtime) :
    Ready (.message_start runtime.message_id runtime.model (runtime.input_tokens.orElse (.num 0)))
      (start runtime) :=
  ⟨⟨[], [], rfl, rfl, Agrees.empty⟩, fun _ _ tracked => by cases tracked⟩

/-- The events are well formed whatever the source hands on, and wherever it raises. -/
theorem openai_stream_to_anthropic_stream_well_formed (runtime : Runtime)
    (fresh : ∀ tracked, Json.str (runtime.fallback_id tracked) ∉ tracked)
    (openai_stream_generator : List Chunk) :
    WellFormed (openai_stream_to_anthropic_stream runtime openai_stream_generator) := by
  have reached := readChunks_triple fresh openai_stream_generator
    (start runtime) (start_ready runtime)
  rw [openai_stream_to_anthropic_stream]
  rcases ran : Program.each (readChunk runtime) openai_stream_generator (start runtime) with
    ⟨result, final⟩
  rw [ran] at reached
  cases result with
  | error error => exact Ended.finish reached
  | ok value => exact Ended.finish reached.ended

section Sample

/-- `{"choices": [{"delta": {"content": "Hi"}}]}`. -/
def sampleText : String :=
  "\x7b\"choices\": [\x7b\"delta\": \x7b\"content\": \"Hi\"\x7d\x7d]\x7d"

/-- `{"choices": [{"delta": {"tool_calls": [{"function": {"name": "now"}}]}}]}`. -/
def sampleCall : String :=
  "\x7b\"choices\": [\x7b\"delta\": \x7b\"tool_calls\": [\x7b\"function\": " ++
    "\x7b\"name\": \"now\"\x7d\x7d]\x7d\x7d]\x7d"

def chunkOf (delta : Fields) : Json := .obj [("choices", .arr [.obj [("delta", .obj delta)]])]

def sampleLoads (text : String) : Except LoadError Json :=
  if text = sampleText then .ok (chunkOf [("content", .str "Hi")])
  else if text = sampleCall then
    .ok (chunkOf [("tool_calls", .arr [.obj [("function", .obj [("name", .str "now")])]])])
  else .error .jsonDecodeError

/-- `toolu_` and as many zeros as it takes for the id to be new. -/
def sampleId (tracked : List Json) : String :=
  let taken := tracked.filterMap Json.str?
  firstFree (fun name => name ++ "0") taken taken.length "toolu_0"

theorem sampleId_fresh (tracked : List Json) : Json.str (sampleId tracked) ∉ tracked := by
  intro member
  have taken : sampleId tracked ∈ tracked.filterMap Json.str? :=
    List.mem_filterMap.mpr ⟨_, member, rfl⟩
  have grows (name : String) : name.length < (name ++ "0").length := by
    rw [String.length_append]
    exact Nat.lt_add_of_pos_right (by decide)
  exact firstFree_free String.length grows (Nat.le_refl _) "toolu_0" taken

def sampleRuntime : Runtime where
  loads := sampleLoads
  model := "gpt"
  input_tokens := .null
  message_id := "msg_0"
  fallback_id := sampleId

def sampleChunks : List Chunk :=
  [.text ("data: " ++ sampleText ++ "\n\n").toList, .text ("data: " ++ sampleCall ++ "\n\n").toList,
    .raises .valueError]

theorem sample_well_formed :
    (∀ tracked, Json.str (sampleRuntime.fallback_id tracked) ∉ tracked) ∧
      WellFormed (openai_stream_to_anthropic_stream sampleRuntime sampleChunks) :=
  ⟨sampleId_fresh,
    openai_stream_to_anthropic_stream_well_formed sampleRuntime sampleId_fresh sampleChunks⟩

/-- The indices that are started and stopped in the sample. -/
example :
    starts (openai_stream_to_anthropic_stream sampleRuntime sampleChunks) = [0, 1] ∧
      stops (openai_stream_to_anthropic_stream sampleRuntime sampleChunks) = [0, 1] := by
  decide

end Sample

end OpenWebui.Anthropic
