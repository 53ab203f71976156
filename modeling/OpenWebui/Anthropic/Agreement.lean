import OpenWebui.Anthropic.Converter

/-! How the memory of the converter agrees with the blocks that a reader of its events has, and
what each of its steps does to both. -/

namespace OpenWebui.Anthropic

def Tool.isOpen (tool : Tool) : Bool := tool.started && !tool.stopped

/-- The running index, the flags and the tracked tools against the blocks of the reader. -/
structure Agrees (index : Nat) (thinking text : Bool) (tools : Dict Json Tool) (blocks : Blocks) :
    Prop where
  length : blocks.length = index + if thinking || text then 1 else 0
  one_flag : thinking = true → text = false
  thinks : thinking = true → blocks[index]? = some (.thinking, true)
  writes : text = true → blocks[index]? = some (.text, true)
  tool_open : ∀ key tool, tools.get? key = some tool → tool.isOpen = true →
    ∃ i : Nat, tool.block_index = (i : Nat) ∧ i < index ∧
      ∃ id name, blocks[i]? = some (.tool_use id name, true)
  apart : ∀ key other tool another, tools.get? key = some tool → tools.get? other = some another →
    tool.isOpen = true → another.isOpen = true → tool.block_index = another.block_index → key = other
  held : ∀ (i : Nat) block, i < index → blocks[i]? = some (block, true) → block.prose = false ∧
    ∃ key tool, tools.get? key = some tool ∧ tool.isOpen = true ∧ tool.block_index = (i : Nat)
  unstarted : ∀ key tool, tools.get? key = some tool → tool.started = false → tool.stopped = false

namespace Agrees

variable {index : Nat} {thinking text : Bool} {tools : Dict Json Tool} {blocks : Blocks}

theorem empty : Agrees 0 false false Dict.empty [] where
  length := rfl
  one_flag := by simp
  thinks := by simp
  writes := by simp
  tool_open := by simp
  apart := by simp
  held := by simp
  unstarted := by simp

theorem no_prose (agrees : Agrees index false false tools blocks) :
    blocks.any openProse = false := by
  rw [List.any_eq_false]
  rintro ⟨block, state⟩ member open_prose
  simp only [openProse, Bool.and_eq_true] at open_prose
  obtain ⟨prose, rfl⟩ := open_prose
  obtain ⟨i, stored⟩ := List.mem_iff_getElem?.mp member
  have bound := (List.getElem?_eq_some_iff.mp stored).1
  rw [agrees.length] at bound
  have closed := (agrees.held i block (by simpa using bound) stored).1
  rw [prose] at closed
  cases closed

theorem start_prose (agrees : Agrees index false false tools blocks) {block : Block}
    {new_thinking new_text : Bool} (one : new_thinking = !new_text)
    (thinks : new_thinking = true → block = .thinking) (writes : new_text = true → block = .text) :
    Agrees index new_thinking new_text tools (blocks ++ [(block, true)]) := by
  have length : blocks.length = index := by simpa using agrees.length
  have last : (blocks ++ [(block, true)])[index]? = some (block, true) := by
    rw [← length, List.getElem?_concat_length]
  have earlier : ∀ i : Nat, i < index → (blocks ++ [(block, true)])[i]? = blocks[i]? := by
    intro i before
    exact List.getElem?_append_left (length ▸ before)
  refine ⟨?_, ?_, ?_, ?_, ?_, agrees.apart, ?_, agrees.unstarted⟩
  · rw [List.length_append, length, one]
    cases new_text <;> rfl
  · intro up
    rw [one] at up
    simpa using up
  · intro up
    rw [last, thinks up]
  · intro up
    rw [last, writes up]
  · intro key tool tracked opened
    obtain ⟨i, same, before, id, name, stored⟩ := agrees.tool_open key tool tracked opened
    exact ⟨i, same, before, id, name, by rw [earlier i before, stored]⟩
  · intro i other before stored
    rw [earlier i before] at stored
    exact agrees.held i other before stored

theorem stop_prose (agrees : Agrees index thinking text tools blocks)
    (up : (thinking || text) = true) :
    ∃ block, blocks[index]? = some (block, true) ∧
      Agrees (index + 1) false false tools (blocks.set index (block, false)) := by
  obtain ⟨block, prose, stored⟩ : ∃ block : Block, block.prose = true ∧
      blocks[index]? = some (block, true) := by
    cases thinking with
    | true => exact ⟨.thinking, rfl, agrees.thinks rfl⟩
    | false => exact ⟨.text, rfl, agrees.writes (by simpa using up)⟩
  have elsewhere : ∀ i : Nat, i < index → (blocks.set index (block, false))[i]? = blocks[i]? := by
    intro i before
    exact List.getElem?_set_ne (by omega)
  refine ⟨block, stored, ?_, by simp, by simp, by simp, ?_, agrees.apart, ?_, agrees.unstarted⟩
  · rw [List.length_set, agrees.length, if_pos up]
    simp
  · intro key tool tracked opened
    obtain ⟨i, same, before, id, name, found⟩ := agrees.tool_open key tool tracked opened
    exact ⟨i, same, by omega, id, name, by rw [elsewhere i before, found]⟩
  · intro i other before found
    rcases Nat.lt_succ_iff_lt_or_eq.mp before with earlier | rfl
    · rw [elsewhere i earlier] at found
      exact agrees.held i other earlier found
    · rw [List.getElem?_set_self (List.getElem?_eq_some_iff.mp stored).1] at found
      simp at found

theorem start_tool (agrees : Agrees index false false tools blocks) {key : Json} {tool : Tool}
    (tracked : tools.get? key = some tool) (unstarted : tool.started = false) (id name : Json) :
    Agrees (index + 1) false false
      (tools.modify key (fun tool => { tool with block_index := (index : Nat), started := true }))
      (blocks ++ [(.tool_use id name, true)]) := by
  have length : blocks.length = index := by simpa using agrees.length
  have last : (blocks ++ [(Block.tool_use id name, true)])[index]? =
      some (.tool_use id name, true) := by
    rw [← length, List.getElem?_concat_length]
  have earlier : ∀ i : Nat, i < index →
      (blocks ++ [(Block.tool_use id name, true)])[i]? = blocks[i]? := by
    intro i before
    exact List.getElem?_append_left (length ▸ before)
  have running := agrees.unstarted key tool tracked unstarted
  have stored : ∀ other another,
      (tools.modify key (fun tool =>
        { tool with block_index := (index : Nat), started := true })).get? other = some another →
      (key = other ∧ another = { tool with block_index := (index : Nat), started := true }) ∨
        (key ≠ other ∧ tools.get? other = some another) := by
    intro other another found
    rcases Dict.get?_modify_cases found with ⟨rfl, old, before, rfl⟩ | apart
    · obtain rfl := Option.some.inj (tracked.symm.trans before)
      exact Or.inl ⟨rfl, rfl⟩
    · exact Or.inr apart
  refine ⟨?_, by simp, by simp, by simp, ?_, ?_, ?_, ?_⟩
  · rw [List.length_append, length]
    rfl
  · intro other another found opened
    rcases stored other another found with ⟨_, rfl⟩ | ⟨_, before⟩
    · exact ⟨index, rfl, Nat.lt_succ_self index, id, name, last⟩
    · obtain ⟨i, same, bound, old_id, old_name, block⟩ :=
        agrees.tool_open other another before opened
      exact ⟨i, same, by omega, old_id, old_name, by rw [earlier i bound, block]⟩
  · intro one other first second found_first found_second open_first open_second same
    rcases stored one first found_first with ⟨rfl, rfl⟩ | ⟨_, before⟩
    · rcases stored other second found_second with ⟨rfl, rfl⟩ | ⟨_, before⟩
      · rfl
      · obtain ⟨i, at_i, bound, _⟩ := agrees.tool_open other second before open_second
        dsimp only at same
        omega
    · obtain ⟨i, at_i, bound, _⟩ := agrees.tool_open one first before open_first
      rcases stored other second found_second with ⟨rfl, rfl⟩ | ⟨_, before_second⟩
      · dsimp only at same
        omega
      · exact agrees.apart one other first second before before_second open_first open_second same
  · intro i block bound found
    rcases Nat.lt_succ_iff_lt_or_eq.mp bound with before | rfl
    · rw [earlier i before] at found
      obtain ⟨prose, other, another, held, opened, same⟩ := agrees.held i block before found
      refine ⟨prose, other, another, ?_, opened, same⟩
      have elsewhere : key ≠ other := by
        rintro rfl
        rw [tracked] at held
        obtain rfl := Option.some.inj held
        simp [Tool.isOpen, unstarted] at opened
      rw [Dict.get?_modify, if_neg elsewhere, held]
    · rw [last] at found
      obtain rfl : Block.tool_use id name = block := by simpa using found
      refine ⟨rfl, key, _, by rw [Dict.get?_modify, if_pos rfl, tracked]; rfl, ?_, rfl⟩
      simp [Tool.isOpen, running]
  · intro other another found not_started
    rcases stored other another found with ⟨_, rfl⟩ | ⟨_, before⟩
    · cases not_started
    · exact agrees.unstarted other another before not_started

theorem stop_tool (agrees : Agrees index thinking text tools blocks) {key : Json} {tool : Tool}
    (tracked : tools.get? key = some tool) (opened : tool.isOpen = true) :
    ∃ (i : Nat) (block : Block), tool.block_index = (i : Nat) ∧ blocks[i]? = some (block, true) ∧
      Agrees index thinking text (tools.modify key (fun tool => { tool with stopped := true }))
        (blocks.set i (block, false)) := by
  obtain ⟨i, same, bound, id, name, stored⟩ := agrees.tool_open key tool tracked opened
  have known : ∀ other another,
      (tools.modify key (fun tool => { tool with stopped := true })).get? other = some another →
      (key = other ∧ another = { tool with stopped := true }) ∨
        (key ≠ other ∧ tools.get? other = some another) := by
    intro other another found
    rcases Dict.get?_modify_cases found with ⟨rfl, old, before, rfl⟩ | apart
    · obtain rfl := Option.some.inj (tracked.symm.trans before)
      exact Or.inl ⟨rfl, rfl⟩
    · exact Or.inr apart
  have closed : ∀ another, another = { tool with stopped := true } → another.isOpen = false := by
    rintro another rfl
    simp [Tool.isOpen]
  have elsewhere : ∀ j : Nat, i ≠ j →
      (blocks.set i (.tool_use id name, false))[j]? = blocks[j]? := by
    intro j apart
    exact List.getElem?_set_ne apart
  refine ⟨i, .tool_use id name, same, stored, ?_, agrees.one_flag, ?_, ?_, ?_, ?_, ?_, ?_⟩
  · rw [List.length_set, agrees.length]
  · intro up
    rw [elsewhere index (by omega), agrees.thinks up]
  · intro up
    rw [elsewhere index (by omega), agrees.writes up]
  · intro other another found open_other
    rcases known other another found with ⟨_, changed⟩ | ⟨apart, before⟩
    · rw [closed another changed] at open_other
      cases open_other
    · obtain ⟨j, at_j, bound_j, other_id, other_name, block⟩ :=
        agrees.tool_open other another before open_other
      refine ⟨j, at_j, bound_j, other_id, other_name, ?_⟩
      have different : i ≠ j := by
        rintro rfl
        exact apart (agrees.apart key other tool another tracked before opened open_other
          (same.trans at_j.symm))
      rw [elsewhere j different, block]
  · intro one other first second found_first found_second open_first open_second equal
    rcases known one first found_first with ⟨_, changed⟩ | ⟨_, before⟩
    · rw [closed first changed] at open_first
      cases open_first
    · rcases known other second found_second with ⟨_, changed⟩ | ⟨_, before_second⟩
      · rw [closed second changed] at open_second
        cases open_second
      · exact agrees.apart one other first second before before_second open_first open_second equal
  · intro j block before found
    have different : i ≠ j := by
      rintro rfl
      rw [List.getElem?_set_self (List.getElem?_eq_some_iff.mp stored).1] at found
      simp at found
    rw [elsewhere j different] at found
    obtain ⟨prose, other, another, held, open_other, at_j⟩ := agrees.held j block before found
    have apart : key ≠ other := by
      rintro rfl
      rw [tracked] at held
      obtain rfl := Option.some.inj held
      omega
    exact ⟨prose, other, another, by rw [Dict.get?_modify, if_neg apart, held], open_other, at_j⟩
  · intro other another found not_started
    rcases known other another found with ⟨_, rfl⟩ | ⟨_, before⟩
    · simp only [Tool.isOpen, Bool.and_eq_true] at opened
      rw [opened.1] at not_started
      cases not_started
    · exact agrees.unstarted other another before not_started

theorem change_tool (agrees : Agrees index thinking text tools blocks) (key : Json)
    {change : Tool → Tool} (same : ∀ tool, (change tool).block_index = tool.block_index ∧
      (change tool).started = tool.started ∧ (change tool).stopped = tool.stopped) :
    Agrees index thinking text (tools.modify key change) blocks := by
  have known : ∀ other another, (tools.modify key change).get? other = some another →
      ∃ before, tools.get? other = some before ∧ another.block_index = before.block_index ∧
        another.started = before.started ∧ another.stopped = before.stopped := by
    intro other another found
    rcases Dict.get?_modify_cases found with ⟨_, before, stored, rfl⟩ | ⟨_, stored⟩
    · exact ⟨before, stored, same before⟩
    · exact ⟨another, stored, rfl, rfl, rfl⟩
  have still : ∀ another before : Tool, another.started = before.started ∧
      another.stopped = before.stopped → another.isOpen = before.isOpen := by
    rintro another before ⟨started, stopped⟩
    rw [Tool.isOpen, Tool.isOpen, started, stopped]
  refine ⟨agrees.length, agrees.one_flag, agrees.thinks, agrees.writes, ?_, ?_, ?_, ?_⟩
  · intro other another found opened
    obtain ⟨before, stored, index_same, rest⟩ := known other another found
    rw [index_same]
    exact agrees.tool_open other before stored (still another before rest ▸ opened)
  · intro one other first second found_first found_second open_first open_second equal
    obtain ⟨before, stored, at_first, rest⟩ := known one first found_first
    obtain ⟨before_second, stored_second, at_second, rest_second⟩ := known other second found_second
    exact agrees.apart one other before before_second stored stored_second
      (still first before rest ▸ open_first) (still second before_second rest_second ▸ open_second)
      (by rw [← at_first, ← at_second, equal])
  · intro i block before found
    obtain ⟨prose, other, another, held, opened, at_i⟩ := agrees.held i block before found
    by_cases here : key = other
    · refine ⟨prose, other, change another, by rw [Dict.get?_modify, if_pos here, held]; rfl, ?_, ?_⟩
      · rw [still (change another) another (same another).2, opened]
      · rw [(same another).1, at_i]
    · exact ⟨prose, other, another, by rw [Dict.get?_modify, if_neg here, held], opened, at_i⟩
  · intro other another found not_started
    obtain ⟨before, stored, _, started, stopped⟩ := known other another found
    rw [stopped]
    exact agrees.unstarted other before stored (started ▸ not_started)

theorem track (agrees : Agrees index thinking text tools blocks) {key : Json}
    (fresh : tools.get? key = none) {tool : Tool} (unstarted : tool.started = false)
    (running : tool.stopped = false) :
    Agrees index thinking text (tools.set key tool) blocks := by
  have closed : tool.isOpen = false := by simp [Tool.isOpen, unstarted]
  have known : ∀ other another, (tools.set key tool).get? other = some another →
      another = tool ∨ tools.get? other = some another := by
    intro other another found
    rw [Dict.get?_set] at found
    split at found
    · exact Or.inl (Option.some.inj found).symm
    · exact Or.inr found
  have old : ∀ other another, (tools.set key tool).get? other = some another →
      another.isOpen = true → tools.get? other = some another := by
    intro other another found opened
    rcases known other another found with rfl | before
    · rw [closed] at opened
      cases opened
    · exact before
  refine ⟨agrees.length, agrees.one_flag, agrees.thinks, agrees.writes, ?_, ?_, ?_, ?_⟩
  · intro other another found opened
    exact agrees.tool_open other another (old other another found opened) opened
  · intro one other first second found_first found_second open_first open_second equal
    exact agrees.apart one other first second (old one first found_first open_first)
      (old other second found_second open_second) open_first open_second equal
  · intro i block before found
    obtain ⟨prose, other, another, held, opened, at_i⟩ := agrees.held i block before found
    have elsewhere : key ≠ other := by
      rintro rfl
      rw [fresh] at held
      cases held
    exact ⟨prose, other, another, by rw [Dict.get?_set, if_neg elsewhere, held], opened, at_i⟩
  · intro other another found not_started
    rcases known other another found with rfl | before
    · exact running
    · exact agrees.unstarted other another before not_started

end Agrees

end OpenWebui.Anthropic
