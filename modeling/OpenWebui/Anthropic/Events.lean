import Mathlib.Data.List.Nodup
import OpenWebui.Base.Json

/-! The events of the Anthropic Messages protocol, when a sequence of them is well formed, and a
reader that accepts such sequences. -/

namespace OpenWebui.Anthropic

/-- `content_block`. -/
inductive Block where
  | thinking
  | text
  | tool_use (id name : Json)
  deriving DecidableEq

/-- `delta`. -/
inductive Delta where
  | thinking_delta (thinking : Json)
  | text_delta (text : Json)
  | input_json_delta (partial_json : String)
  deriving DecidableEq

inductive Event where
  | message_start (id model : String) (input_tokens : Json)
  | content_block_start (index : Int) (content_block : Block)
  | content_block_delta (index : Int) (delta : Delta)
  | content_block_stop (index : Int)
  | message_delta (stop_reason : String) (usage : Fields)
  | message_stop
  deriving DecidableEq

namespace Block

def prose : Block → Bool
  | thinking | text => true
  | tool_use .. => false

def takes : Block → Delta → Bool
  | thinking, .thinking_delta _ => true
  | text, .text_delta _ => true
  | tool_use .., .input_json_delta _ => true
  | _, _ => false

end Block

def starts (events : List Event) : List Int :=
  events.filterMap (fun
    | .content_block_start index _ => some index
    | _ => none)

def stops (events : List Event) : List Int :=
  events.filterMap (fun
    | .content_block_stop index => some index
    | _ => none)

/-- The block has been started and not stopped. -/
def Open (events : List Event) (index : Int) (block : Block) : Prop :=
  Event.content_block_start index block ∈ events ∧ index ∉ stops events

/-- What the events between the first and the last two of a message are to be. -/
structure WellFormedContent (content : List Event) : Prop where
  /-- The blocks are numbered in the order in which they are started. -/
  numbered : starts content = (List.range (starts content).length).map Int.ofNat
  /-- Each block is stopped once. -/
  stopped : (stops content).Perm (starts content)
  /-- A block is stopped after it has been started. -/
  stops_open : ∀ before index after, content = before ++ .content_block_stop index :: after →
    ∃ block, Open before index block
  delta_open : ∀ before index delta after,
    content = before ++ .content_block_delta index delta :: after →
      ∃ block, Open before index block ∧ block.takes delta = true
  /-- Of the blocks of thinking and text one at most is open. -/
  one_prose : ∀ before after, content = before ++ after → ∀ first second one other,
    Open before first one → one.prose = true → Open before second other → other.prose = true →
      first = second
  /-- None of them is open when a tool is started. -/
  tool_apart : ∀ before index id name after,
    content = before ++ .content_block_start index (.tool_use id name) :: after →
      ∀ other block, Open before other block → block.prose = false
  /-- All events are about blocks. -/
  blocks_only : ∀ event ∈ content, (∃ index block, event = .content_block_start index block) ∨
    (∃ index delta, event = .content_block_delta index delta) ∨
      ∃ index, event = .content_block_stop index

/-- A message begins once, and then ends once. -/
def WellFormed (events : List Event) : Prop :=
  ∃ id model input_tokens content stop_reason usage,
    events = .message_start id model input_tokens ::
        (content ++ [.message_delta stop_reason usage, .message_stop]) ∧
      WellFormedContent content

theorem WellFormedContent.message {content : List Event} (wellFormed : WellFormedContent content)
    (id model : String) (input_tokens : Json) (stop_reason : String) (usage : Fields) :
    WellFormed (.message_start id model input_tokens :: content ++
      [.message_delta stop_reason usage] ++ [.message_stop]) :=
  ⟨id, model, input_tokens, content, stop_reason, usage, by rw [List.append_assoc]; rfl, wellFormed⟩

section Reader

abbrev Blocks := List (Block × Bool)

def Blocks.at? (blocks : Blocks) (index : Int) : Option (Block × Bool) :=
  if 0 ≤ index then blocks[index.toNat]? else none

def openProse (entry : Block × Bool) : Bool := entry.1.prose && entry.2

def accept (blocks : Blocks) : Event → Option Blocks
  | .content_block_start index block =>
    if index = (blocks.length : Nat) ∧ blocks.any openProse = false then
      some (blocks ++ [(block, true)])
    else none
  | .content_block_delta index delta =>
    match blocks.at? index with
    | some (block, true) => if block.takes delta then some blocks else none
    | _ => none
  | .content_block_stop index =>
    match blocks.at? index with
    | some (block, true) => some (blocks.set index.toNat (block, false))
    | _ => none
  | _ => none

/-- What the reader has seen of the events it has accepted. -/
structure Seen (events : List Event) (blocks : Blocks) : Prop where
  started : starts events = (List.range blocks.length).map Int.ofNat
  known : ∀ i block state, blocks[i]? = some (block, state) →
    Event.content_block_start (i : Nat) block ∈ events ∧
      (state = true ↔ ((i : Nat) : Int) ∉ stops events)
  block_of : ∀ index block, Event.content_block_start index block ∈ events →
    ∃ i : Nat, index = (i : Nat) ∧ ∃ state, blocks[i]? = some (block, state)
  stopped : ∀ index ∈ stops events, ∃ i : Nat, index = (i : Nat) ∧ i < blocks.length
  once : (stops events).Nodup
  one_prose : ∀ i j : Nat, ∀ one other : Block × Bool, blocks[i]? = some one →
    blocks[j]? = some other → openProse one = true → openProse other = true → i = j

variable {events : List Event} {blocks next : Blocks}

theorem Seen.empty : Seen [] [] where
  started := rfl
  known := by simp
  block_of := by simp
  stopped := by simp [stops]
  once := List.nodup_nil
  one_prose := by simp

theorem accept_start {index : Int} {block : Block} :
    accept blocks (.content_block_start index block) = some next ↔
      index = (blocks.length : Nat) ∧ blocks.any openProse = false ∧
        blocks ++ [(block, true)] = next := by
  rw [accept]
  split
  · rename_i fits
    rw [Option.some.injEq]
    exact ⟨fun same => ⟨fits.1, fits.2, same⟩, fun all => all.2.2⟩
  · rename_i unfit
    exact ⟨fun impossible => by simp at impossible, fun all => absurd ⟨all.1, all.2.1⟩ unfit⟩

theorem at?_eq_some {index : Int} {entry : Block × Bool} :
    blocks.at? index = some entry ↔ ∃ i : Nat, index = (i : Nat) ∧ blocks[i]? = some entry := by
  rw [Blocks.at?]
  split
  · rename_i natural
    obtain ⟨i, rfl⟩ := Int.eq_ofNat_of_zero_le natural
    exact ⟨fun found => ⟨i, rfl, found⟩, by rintro ⟨j, same, found⟩; simpa [same] using found⟩
  · rename_i negative
    constructor
    · intro impossible
      cases impossible
    · rintro ⟨i, rfl, _⟩
      exact absurd (Int.natCast_nonneg i) negative

theorem accept_delta {index : Int} {delta : Delta} :
    accept blocks (.content_block_delta index delta) = some next ↔
      (∃ i : Nat, index = (i : Nat) ∧ ∃ block, blocks[i]? = some (block, true) ∧
        block.takes delta = true) ∧ next = blocks := by
  rw [accept]
  split
  · rename_i block found
    obtain ⟨i, rfl, stored⟩ := at?_eq_some.mp found
    constructor
    · intro same
      split at same
      · rename_i fits
        exact ⟨⟨i, rfl, block, stored, fits⟩, (Option.some.inj same).symm⟩
      · cases same
    · rintro ⟨⟨j, same, other, found, fits⟩, rfl⟩
      obtain rfl := Int.ofNat.inj same
      obtain rfl : block = other := by simpa [stored] using found
      rw [if_pos fits]
  · rename_i absent
    constructor
    · intro impossible
      cases impossible
    · rintro ⟨⟨i, same, block, found, _⟩, _⟩
      exact absurd (at?_eq_some.mpr ⟨i, same, found⟩) (absent block)

theorem accept_stop {index : Int} :
    accept blocks (.content_block_stop index) = some next ↔
      ∃ i : Nat, index = (i : Nat) ∧ ∃ block, blocks[i]? = some (block, true) ∧
        blocks.set i (block, false) = next := by
  rw [accept]
  split
  · rename_i block found
    obtain ⟨i, rfl, stored⟩ := at?_eq_some.mp found
    rw [Int.toNat_natCast, Option.some.injEq]
    constructor
    · intro same
      exact ⟨i, rfl, block, stored, same⟩
    · rintro ⟨j, same, other, found, changed⟩
      obtain rfl := Int.ofNat.inj same
      obtain rfl : block = other := by simpa [stored] using found
      exact changed
  · rename_i absent
    constructor
    · intro impossible
      cases impossible
    · rintro ⟨i, same, block, found, _⟩
      exact absurd (at?_eq_some.mpr ⟨i, same, found⟩) (absent block)

theorem starts_append (first second : List Event) :
    starts (first ++ second) = starts first ++ starts second := List.filterMap_append

theorem stops_append (first second : List Event) :
    stops (first ++ second) = stops first ++ stops second := List.filterMap_append

theorem stops_stop (index : Int) : stops [.content_block_stop index] = [index] := rfl

theorem Seen.open_iff (seen : Seen events blocks) {index : Int} {block : Block} :
    Open events index block ↔ ∃ i : Nat, index = (i : Nat) ∧ blocks[i]? = some (block, true) := by
  constructor
  · rintro ⟨started, unstopped⟩
    obtain ⟨i, rfl, state, stored⟩ := seen.block_of index block started
    obtain rfl := (seen.known i block state stored).2.mpr unstopped
    exact ⟨i, rfl, stored⟩
  · rintro ⟨i, rfl, stored⟩
    obtain ⟨started, state⟩ := seen.known i block true stored
    exact ⟨started, state.mp rfl⟩

theorem Seen.start (seen : Seen events blocks) {block : Block}
    (closed : blocks.any openProse = false) :
    Seen (events ++ [.content_block_start (blocks.length : Nat) block])
      (blocks ++ [(block, true)]) where
  started := by
    rw [starts_append, seen.started, List.length_append, List.length_singleton, List.range_succ,
      List.map_append]
    rfl
  known := by
    intro i other state stored
    rw [stops_append]
    rcases Nat.lt_trichotomy i blocks.length with before | rfl | after
    · rw [List.getElem?_append_left before] at stored
      obtain ⟨started, open_iff⟩ := seen.known i other state stored
      exact ⟨List.mem_append_left _ started, by simpa [stops] using open_iff⟩
    · rw [List.getElem?_concat_length, Option.some.injEq, Prod.mk.injEq] at stored
      obtain ⟨rfl, rfl⟩ := stored
      refine ⟨List.mem_append_right _ (List.mem_singleton.mpr rfl), iff_of_true rfl ?_⟩
      intro member
      rcases List.mem_append.mp member with earlier | last
      · obtain ⟨j, same, bound⟩ := seen.stopped _ earlier
        omega
      · simp [stops] at last
    · rw [List.getElem?_eq_none (by rw [List.length_append, List.length_singleton]; omega)] at stored
      cases stored
  block_of := by
    intro index other member
    rcases List.mem_append.mp member with earlier | last
    · obtain ⟨i, rfl, state, stored⟩ := seen.block_of index other earlier
      have bound := (List.getElem?_eq_some_iff.mp stored).1
      exact ⟨i, rfl, state, by rwa [List.getElem?_append_left bound]⟩
    · rw [List.mem_singleton, Event.content_block_start.injEq] at last
      obtain ⟨rfl, rfl⟩ := last
      exact ⟨_, rfl, true, List.getElem?_concat_length ..⟩
  stopped := by
    intro index member
    rw [stops_append] at member
    rcases List.mem_append.mp member with earlier | last
    · obtain ⟨i, rfl, bound⟩ := seen.stopped index earlier
      exact ⟨i, rfl, by rw [List.length_append]; omega⟩
    · simp [stops] at last
  once := by
    rw [stops_append]
    simpa [stops] using seen.once
  one_prose := by
    have apart : ∀ (i : Nat) (one : Block × Bool), (blocks ++ [(block, true)])[i]? = some one →
        openProse one = true → i = blocks.length := by
      intro i one stored prose
      rcases Nat.lt_trichotomy i blocks.length with before | same | after
      · rw [List.getElem?_append_left before] at stored
        have none := List.any_eq_false.mp closed one (List.mem_of_getElem? stored)
        exact absurd prose none
      · exact same
      · rw [List.getElem?_eq_none (by rw [List.length_append, List.length_singleton]; omega)] at stored
        cases stored
    intro i j one other first second prose_one prose_other
    rw [apart i one first prose_one, apart j other second prose_other]

theorem Seen.delta (seen : Seen events blocks) (index : Int) (delta : Delta) :
    Seen (events ++ [.content_block_delta index delta]) blocks where
  started := by
    rw [starts_append]
    simpa [starts] using seen.started
  known := by
    intro i block state stored
    obtain ⟨started, open_iff⟩ := seen.known i block state stored
    rw [stops_append]
    exact ⟨List.mem_append_left _ started, by simpa [stops] using open_iff⟩
  block_of := by
    intro other block member
    exact seen.block_of other block (by simpa using member)
  stopped := by
    intro other member
    rw [stops_append] at member
    exact seen.stopped other (by simpa [stops] using member)
  once := by
    rw [stops_append]
    simpa [stops] using seen.once
  one_prose := seen.one_prose

theorem Seen.stop (seen : Seen events blocks) {i : Nat} {block : Block}
    (opened : blocks[i]? = some (block, true)) :
    Seen (events ++ [.content_block_stop (i : Nat)]) (blocks.set i (block, false)) where
  started := by
    rw [starts_append, List.length_set]
    simpa [starts] using seen.started
  known := by
    intro j other state stored
    rw [stops_append]
    by_cases here : i = j
    · subst here
      rw [List.getElem?_set_self (List.getElem?_eq_some_iff.mp opened).1, Option.some.injEq,
        Prod.mk.injEq] at stored
      obtain ⟨rfl, rfl⟩ := stored
      exact ⟨List.mem_append_left _ (seen.known i block true opened).1, by simp [stops]⟩
    · rw [List.getElem?_set_ne here] at stored
      obtain ⟨started, open_iff⟩ := seen.known j other state stored
      refine ⟨List.mem_append_left _ started, open_iff.trans ?_⟩
      rw [List.mem_append, stops_stop, List.mem_singleton, not_or]
      exact ⟨fun unstopped => ⟨unstopped, by omega⟩, And.left⟩
  block_of := by
    intro index other member
    obtain ⟨j, rfl, state, stored⟩ := seen.block_of index other (by simpa using member)
    by_cases here : i = j
    · subst here
      rw [opened, Option.some.injEq, Prod.mk.injEq] at stored
      obtain ⟨rfl, rfl⟩ := stored
      exact ⟨i, rfl, false, List.getElem?_set_self (List.getElem?_eq_some_iff.mp opened).1⟩
    · exact ⟨j, rfl, state, by rwa [List.getElem?_set_ne here]⟩
  stopped := by
    intro index member
    rw [stops_append] at member
    rw [List.length_set]
    rcases List.mem_append.mp member with earlier | last
    · exact seen.stopped index earlier
    · obtain rfl : index = (i : Nat) := by simpa [stops] using last
      exact ⟨i, rfl, (List.getElem?_eq_some_iff.mp opened).1⟩
  once := by
    rw [stops_append]
    have unstopped := (seen.known i block true opened).2.mp rfl
    exact List.nodup_append.mpr ⟨seen.once, by simp [stops], by
      intro index member other last same
      obtain rfl : other = (i : Nat) := by simpa [stops] using last
      exact unstopped (same ▸ member)⟩
  one_prose := by
    have before : ∀ (j : Nat) (one : Block × Bool),
        (blocks.set i (block, false))[j]? = some one → openProse one = true →
          blocks[j]? = some one := by
      intro j one stored prose
      by_cases here : i = j
      · subst here
        rw [List.getElem?_set_self (List.getElem?_eq_some_iff.mp opened).1,
          Option.some.injEq] at stored
        subst stored
        simp [openProse] at prose
      · rwa [List.getElem?_set_ne here] at stored
    intro j k one other first second prose_one prose_other
    exact seen.one_prose j k one other (before j one first prose_one)
      (before k other second prose_other) prose_one prose_other

theorem Seen.accept (seen : Seen events blocks) {event : Event}
    (accepted : accept blocks event = some next) : Seen (events ++ [event]) next := by
  cases event with
  | content_block_start index block =>
    obtain ⟨rfl, closed, rfl⟩ := accept_start.mp accepted
    exact seen.start closed
  | content_block_delta index delta =>
    obtain ⟨_, rfl⟩ := accept_delta.mp accepted
    exact seen.delta index delta
  | content_block_stop index =>
    obtain ⟨i, rfl, block, opened, rfl⟩ := accept_stop.mp accepted
    exact seen.stop opened
  | _ => cases accepted

def reads (events : List Event) : Option Blocks := events.foldlM accept []

theorem reads_concat {event : Event} : reads (events ++ [event]) = some next ↔
    ∃ blocks, reads events = some blocks ∧ accept blocks event = some next := by
  rw [reads, List.foldlM_append, Option.bind_eq_bind, Option.bind_eq_some_iff]
  simp [reads]

theorem seen_of_reads (read : reads events = some blocks) : Seen events blocks := by
  induction events using List.reverseRecOn generalizing blocks with
  | nil =>
    obtain rfl := Option.some.inj read
    exact Seen.empty
  | append_singleton earlier event ih =>
    obtain ⟨before, first, accepted⟩ := reads_concat.mp read
    exact (ih first).accept accepted

theorem reads_before {before after : List Event} {event : Event}
    (read : reads (before ++ event :: after) = some blocks) :
    ∃ reached next, reads before = some reached ∧ Anthropic.accept reached event = some next := by
  rw [reads, List.foldlM_append, Option.bind_eq_bind, Option.bind_eq_some_iff] at read
  obtain ⟨reached, first, later⟩ := read
  rw [List.foldlM_cons, Option.bind_eq_bind, Option.bind_eq_some_iff] at later
  obtain ⟨next, accepted, _⟩ := later
  exact ⟨reached, next, first, accepted⟩

theorem wellFormedContent_of_reads (read : reads events = some blocks)
    (closed : ∀ entry ∈ blocks, entry.2 = false) : WellFormedContent events where
  numbered := by
    have seen := seen_of_reads read
    have length : (starts events).length = blocks.length := by rw [seen.started]; simp
    rw [length]
    exact seen.started
  stopped := by
    have seen := seen_of_reads read
    refine (List.perm_ext_iff_of_nodup seen.once ?_).mpr (fun index => ?_)
    · rw [seen.started]
      exact List.Nodup.map (fun _ _ same => Int.ofNat.inj same) List.nodup_range
    · rw [seen.started, List.mem_map]
      constructor
      · intro member
        obtain ⟨i, rfl, bound⟩ := seen.stopped index member
        exact ⟨i, List.mem_range.mpr bound, rfl⟩
      · rintro ⟨i, member, rfl⟩
        have stored := List.getElem?_eq_getElem (List.mem_range.mp member)
        have state := closed _ (List.mem_of_getElem? stored)
        by_contra unstopped
        have opened := (seen.known i _ _ stored).2.mpr unstopped
        simp [state] at opened
  stops_open := by
    intro before index after split
    obtain ⟨reached, next, first, accepted⟩ := reads_before (split ▸ read)
    obtain ⟨i, rfl, block, opened, _⟩ := accept_stop.mp accepted
    exact ⟨block, (seen_of_reads first).open_iff.mpr ⟨i, rfl, opened⟩⟩
  delta_open := by
    intro before index delta after split
    obtain ⟨reached, next, first, accepted⟩ := reads_before (split ▸ read)
    obtain ⟨⟨i, rfl, block, opened, takes⟩, _⟩ := accept_delta.mp accepted
    exact ⟨block, (seen_of_reads first).open_iff.mpr ⟨i, rfl, opened⟩, takes⟩
  one_prose := by
    intro before after split first second one other open_one prose_one open_other prose_other
    have earlier_read : ∃ reached, reads before = some reached := by
      rw [split, reads, List.foldlM_append, Option.bind_eq_bind, Option.bind_eq_some_iff] at read
      obtain ⟨reached, first, _⟩ := read
      exact ⟨reached, first⟩
    obtain ⟨reached, read_before⟩ := earlier_read
    have seen := seen_of_reads read_before
    obtain ⟨i, rfl, at_i⟩ := seen.open_iff.mp open_one
    obtain ⟨j, rfl, at_j⟩ := seen.open_iff.mp open_other
    rw [seen.one_prose i j _ _ at_i at_j (by simp [openProse, prose_one])
      (by simp [openProse, prose_other])]
  tool_apart := by
    intro before index id name after split other block opened
    obtain ⟨reached, next, first, accepted⟩ := reads_before (split ▸ read)
    obtain ⟨_, none, _⟩ := accept_start.mp accepted
    obtain ⟨i, rfl, stored⟩ := (seen_of_reads first).open_iff.mp opened
    have closed_prose := List.any_eq_false.mp none _ (List.mem_of_getElem? stored)
    simpa [openProse] using closed_prose
  blocks_only := by
    intro event member
    obtain ⟨before, after, split⟩ := List.append_of_mem member
    obtain ⟨reached, next, _, accepted⟩ := reads_before (split ▸ read)
    cases event with
    | content_block_start index block => exact Or.inl ⟨index, block, rfl⟩
    | content_block_delta index delta => exact Or.inr (Or.inl ⟨index, delta, rfl⟩)
    | content_block_stop index => exact Or.inr (Or.inr ⟨index, rfl⟩)
    | _ => cases accepted

end Reader

end OpenWebui.Anthropic
