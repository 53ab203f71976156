import Mathlib.Algebra.Order.Floor.Ring
import Mathlib.Data.Rat.Floor
import OpenWebui.Base.Dict
import OpenWebui.Base.ParentLinks

/-! `convertOpenAIMessages`: a conversation exported as a tree of nodes becomes a chain of the
messages that are kept, in the order of the nodes. -/

namespace OpenWebui.Utils

/-- The messages from one upwards. `none` stands for a loop that has not ended within the fuel. -/
def messagesUpwards {Message : Type} (parentId : Message → Option String)
    (messages : Dict String Message) : Nat → Option String → Option (List Message)
  | _, none => some []
  | 0, some _ => none
  | fuel + 1, some currentId =>
    match messages.get? currentId with
    | none => some []
    | some message => (messagesUpwards parentId messages fuel (parentId message)).map (message :: ·)

def createMessagesList {Message : Type} (parentId : Message → Option String)
    (messages : Dict String Message) (fuel : Nat) (messageId : Option String) : Option (List Message) :=
  (messagesUpwards parentId messages fuel messageId).map List.reverse

theorem messagesUpwards_mono {Message : Type} {parentId : Message → Option String}
    {messages : Dict String Message} {fuel more : Nat} {start : Option String} {list : List Message}
    (enough : fuel ≤ more) (walked : messagesUpwards parentId messages fuel start = some list) :
    messagesUpwards parentId messages more start = some list := by
  induction fuel generalizing more start list with
  | zero =>
    cases start with
    | none => simpa [messagesUpwards] using walked
    | some id => exact nomatch walked
  | succ fuel ih =>
    obtain ⟨more, rfl⟩ : ∃ rest, more = rest + 1 := ⟨more - 1, by omega⟩
    cases start with
    | none => simpa [messagesUpwards] using walked
    | some id =>
      rw [messagesUpwards] at walked ⊢
      cases found : messages.get? id with
      | none => simpa only [found] using walked
      | some message =>
        simp only [found] at walked ⊢
        obtain ⟨above, rest, rfl⟩ := Option.map_eq_some_iff.mp walked
        rw [ih (by omega) rest]
        rfl

end OpenWebui.Utils

namespace OpenWebui.Imports

/-- An element of `parts`: a text, or an object such as an image. -/
inductive Part
  | text (text : String)
  | object
deriving DecidableEq

structure Content where
  parts : Option (List Part)
  text : Option String
deriving DecidableEq

structure OpenAIMessage where
  role : Option String
  content : Option Content
  model_slug : Option String
  create_time : Option Rat
deriving DecidableEq

structure Node where
  message : Option OpenAIMessage
  children : Option (List String)
deriving DecidableEq

structure ChatMessage where
  id : String
  parentId : Option String
  childrenIds : List String
  role : String
  content : String
  model : String
  timestamp : Option Int
deriving DecidableEq

structure Chat where
  currentId : String
  history : Dict String ChatMessage
  messages : List ChatMessage
  models : List String

def extractOpenAIMessageContent (message : Option OpenAIMessage) : String :=
  let content := message.bind OpenAIMessage.content
  let textParts := ((content.bind Content.parts).getD []).filterMap (fun part =>
    match part with
    | .text text => some text
    | .object => none)
  if textParts ≠ [] then "\n".intercalate textParts else (content.bind Content.text).getD ""

/-- Whether a node has no content. `none` stands for the `TypeError` of a message without one. -/
def lacks_content (node : Node) : Option Bool :=
  match node.message with
  | none => some true
  | some message => message.content.map (fun content =>
      decide ((content.parts.bind List.head?) = some (.text "")) && content.text.isNone)

def speaks (node : Node) : Bool :=
  let role := node.message.bind OpenAIMessage.role
  decide (role ≠ some "system" ∧ role ≠ some "tool")

def accepted (started : Bool) (node : Node) : Bool :=
  (started || decide (lacks_content node = some false)) && speaks node

/-- `message['message']?.['metadata']?.['model_slug'] || 'gpt-3.5-turbo'`. -/
def modelOf (node : Node) : String :=
  ((node.message.bind OpenAIMessage.model_slug).filter (· ≠ "")).getD "gpt-3.5-turbo"

def new_chat (message_id : String) (node : Node) (lastId : Option String) : ChatMessage where
  id := message_id
  parentId := lastId
  childrenIds := node.children.getD []
  role := if node.message.bind OpenAIMessage.role ≠ some "user" then "assistant" else "user"
  content := extractOpenAIMessageContent node.message
  model := modelOf node
  timestamp := ((node.message.bind OpenAIMessage.create_time).filter (· ≠ 0)).map Int.floor

structure Loop where
  messages : List ChatMessage
  currentId : String
  lastId : Option String
  uniqueModels : List String

def visit (loop : Loop) (entry : String × Node) : Loop :=
  let loop := { loop with currentId := entry.1 }
  if accepted (!loop.messages.isEmpty) entry.2 then
    { loop with
      messages := loop.messages ++ [new_chat entry.1 entry.2 loop.lastId]
      lastId := some entry.1
      uniqueModels :=
        if entry.2.message.bind OpenAIMessage.role ≠ some "user" ∧ modelOf entry.2 ∉ loop.uniqueModels then
          loop.uniqueModels ++ [modelOf entry.2]
        else loop.uniqueModels }
  else loop

def convertOpenAIMessages (mapping : Dict String Node) : Chat :=
  let loop := mapping.entries.foldl visit ⟨[], "", none, []⟩
  let messages :=
    loop.messages.modify (loop.messages.length - 1) (fun message => { message with childrenIds := [] })
  { currentId := loop.currentId
    history := messages.foldl (fun history message => history.set message.id message) .empty
    messages := messages
    models := if loop.uniqueModels ≠ [] then loop.uniqueModels else ["gpt-3.5-turbo"] }

def keptFrom : Bool → List (String × Node) → List (String × Node)
  | _, [] => []
  | started, entry :: rest =>
    if accepted started entry.2 then entry :: keptFrom true rest else keptFrom started rest

def kept (mapping : Dict String Node) : List (String × Node) := keptFrom false mapping.entries

def chained : Option String → List (String × Node) → List ChatMessage
  | _, [] => []
  | lastId, entry :: rest => new_chat entry.1 entry.2 lastId :: chained (some entry.1) rest

theorem visit_all (entries : List (String × Node)) (loop : Loop) :
    (entries.foldl visit loop).messages =
        loop.messages ++ chained loop.lastId (keptFrom (!loop.messages.isEmpty) entries) ∧
      (entries.foldl visit loop).currentId = ((entries.getLast?).map Prod.fst).getD loop.currentId := by
  induction entries generalizing loop with
  | nil => exact ⟨(List.append_nil _).symm, rfl⟩
  | cons entry rest ih =>
    obtain ⟨messages, current⟩ := ih (visit loop entry)
    have last : (visit loop entry).currentId = entry.1 := by
      rw [visit]
      dsimp only
      split_ifs <;> rfl
    rw [List.foldl_cons]
    refine ⟨?_, ?_⟩
    · rw [messages, keptFrom]
      by_cases joins : accepted (!loop.messages.isEmpty) entry.2 = true
      · have nonempty : (!(loop.messages ++ [new_chat entry.1 entry.2 loop.lastId]).isEmpty) = true := by
          simp
        simp [visit, joins, chained, nonempty]
      · simp [visit, joins]
    · rw [current, last, List.getLast?_cons]
      cases rest.getLast? <;> rfl

theorem keptFrom_append (started : Bool) (before after : List (String × Node)) :
    keptFrom started (before ++ after) =
      keptFrom started before ++ keptFrom (started || !(keptFrom started before).isEmpty) after := by
  induction before generalizing started with
  | nil => simp [keptFrom]
  | cons entry rest ih =>
    rw [List.cons_append, keptFrom, keptFrom]
    split_ifs with joins
    · simp [ih]
    · rw [ih]

theorem keptFrom_sublist (started : Bool) (entries : List (String × Node)) :
    (keptFrom started entries).Sublist entries := by
  induction entries generalizing started with
  | nil => exact .slnil
  | cons entry rest ih =>
    rw [keptFrom]
    split_ifs with joins
    · exact (ih true).cons_cons entry
    · exact (ih started).cons entry

theorem kept_nodup (mapping : Dict String Node) : ((kept mapping).map Prod.fst).Nodup :=
  mapping.unique.sublist ((keptFrom_sublist false mapping.entries).map Prod.fst)

theorem length_chained (lastId : Option String) (entries : List (String × Node)) :
    (chained lastId entries).length = entries.length := by
  induction entries generalizing lastId with
  | nil => rfl
  | cons entry rest ih => simp [chained, ih]

theorem messages_eq (mapping : Dict String Node) :
    (convertOpenAIMessages mapping).messages =
      (chained none (kept mapping)).modify ((kept mapping).length - 1)
        (fun message => { message with childrenIds := [] }) := by
  have run := (visit_all mapping.entries ⟨[], "", none, []⟩).1
  simp only [List.nil_append, List.isEmpty_nil, Bool.not_true] at run
  rw [convertOpenAIMessages]
  simp only [run, length_chained]
  rfl

theorem currentId_eq (mapping : Dict String Node) :
    (convertOpenAIMessages mapping).currentId = ((mapping.entries.getLast?).map Prod.fst).getD "" :=
  (visit_all mapping.entries ⟨[], "", none, []⟩).2

theorem getElem?_chained (lastId : Option String) (entries : List (String × Node)) (position : Nat) :
    (chained lastId entries)[position]? = entries[position]?.map (fun entry =>
      new_chat entry.1 entry.2 (if position = 0 then lastId else entries[position - 1]?.map Prod.fst)) := by
  induction entries generalizing lastId position with
  | nil => rfl
  | cons entry rest ih =>
    cases position with
    | zero => rfl
    | succ position =>
      rw [chained, List.getElem?_cons_succ, ih, List.getElem?_cons_succ]
      cases position with
      | zero => simp
      | succ position => simp

def links (history : Dict String ChatMessage) : ParentLinks String where
  nodes := history.keys
  parent id := (history.get? id).bind ChatMessage.parentId
  children id := ((history.get? id).map ChatMessage.childrenIds).getD []

/-- The current id is that of a message, the children of each message are those that name it as their
parent, the parents form a forest, and the branch of the current message has all messages. -/
structure Sound (chat : Chat) : Prop where
  current : chat.currentId ∈ chat.history.keys
  listed : ∀ id ∈ chat.history.keys, ∀ child,
    child ∈ (links chat.history).children id ↔ (links chat.history).Edge child id
  closed : (links chat.history).Closed
  acyclic : (links chat.history).Acyclic
  distinct : (chat.messages.map ChatMessage.id).Nodup
  branch : ∃ enough, ∀ fuel ≥ enough,
    Utils.createMessagesList ChatMessage.parentId chat.history fuel (some chat.currentId) =
      some chat.messages

/-- The last node is kept, and what is kept before another node has that as its only child. -/
structure Sequential (mapping : Dict String Node) : Prop where
  last : mapping.entries.getLast? = (kept mapping).getLast?
  next : List.IsChain (fun first second => ∀ id, id ∈ first.2.children.getD [] ↔ id = second.1)
    (kept mapping)

section

variable {mapping : Dict String Node}

def idAt (mapping : Dict String Node) (position : Nat) : Option String :=
  (kept mapping)[position]?.map Prod.fst

theorem getElem?_messages (position : Nat) :
    (convertOpenAIMessages mapping).messages[position]? = (kept mapping)[position]?.map (fun entry =>
      { new_chat entry.1 entry.2 (if position = 0 then none else idAt mapping (position - 1)) with
        childrenIds := if position + 1 = (kept mapping).length then [] else entry.2.children.getD [] }) := by
  rw [messages_eq, List.getElem?_modify, getElem?_chained]
  cases found : (kept mapping)[position]? with
  | none => simp
  | some entry =>
    obtain ⟨inside, _⟩ := List.getElem?_eq_some_iff.mp found
    by_cases last : (kept mapping).length - 1 = position
    · have ends : position + 1 = (kept mapping).length := by omega
      simp [last, ends, idAt]
    · have before : position + 1 ≠ (kept mapping).length := by omega
      simp [last, before, idAt, new_chat]

theorem messages_ids : (convertOpenAIMessages mapping).messages.map ChatMessage.id =
    (kept mapping).map Prod.fst := by
  refine List.ext_getElem? (fun position => ?_)
  rw [List.getElem?_map, List.getElem?_map, getElem?_messages]
  cases (kept mapping)[position]? <;> rfl

theorem history_entries : (convertOpenAIMessages mapping).history.entries =
    (convertOpenAIMessages mapping).messages.map (fun message => (message.id, message)) := by
  have distinct : ((convertOpenAIMessages mapping).messages.map ChatMessage.id).Nodup :=
    messages_ids ▸ kept_nodup mapping
  exact Dict.entries_foldl_set distinct .empty (fun _ _ => List.not_mem_nil)

theorem history_keys : (convertOpenAIMessages mapping).history.keys = (kept mapping).map Prod.fst := by
  rw [Dict.keys, history_entries, ← messages_ids, Assoc.keys, List.map_map]
  rfl

theorem mem_kept {position : Nat} {entry : String × Node}
    (found : (kept mapping)[position]? = some entry) : idAt mapping position = some entry.1 := by
  rw [idAt, found]
  rfl

theorem history_get? {position : Nat} {entry : String × Node}
    (found : (kept mapping)[position]? = some entry) :
    (convertOpenAIMessages mapping).history.get? entry.1 =
      (convertOpenAIMessages mapping).messages[position]? := by
  have stored := @getElem?_messages mapping position
  rw [found, Option.map_some] at stored
  rw [stored]
  refine Dict.mem_entries_iff.mp ?_
  rw [history_entries]
  exact List.mem_map.mpr ⟨_, List.mem_of_getElem? stored, rfl⟩

theorem exists_position {id : String} (listed : id ∈ (convertOpenAIMessages mapping).history.keys) :
    ∃ (position : Nat) (entry : String × Node), (kept mapping)[position]? = some entry ∧ entry.1 = id := by
  rw [history_keys] at listed
  obtain ⟨entry, member, same⟩ := List.mem_map.mp listed
  obtain ⟨position, found⟩ := List.getElem?_of_mem member
  exact ⟨position, entry, found, same⟩

theorem position_unique {first second : Nat} {one other : String × Node}
    (found : (kept mapping)[first]? = some one) (found_other : (kept mapping)[second]? = some other)
    (same : one.1 = other.1) : first = second := by
  obtain ⟨inside, _⟩ := List.getElem?_eq_some_iff.mp found
  have listed : first < ((kept mapping).map Prod.fst).length := by simpa using inside
  refine (List.getElem?_inj listed (kept_nodup mapping)).mp ?_
  rw [List.getElem?_map, List.getElem?_map, found, found_other, Option.map_some, Option.map_some, same]

theorem edge_iff {position : Nat} {entry : String × Node} {child : String}
    (found : (kept mapping)[position]? = some entry) :
    (links (convertOpenAIMessages mapping).history).Edge child entry.1 ↔
      idAt mapping (position + 1) = some child := by
  have parent {later : Nat} {other : String × Node} (found_other : (kept mapping)[later]? = some other) :
      (links (convertOpenAIMessages mapping).history).parent other.1 =
        if later = 0 then none else idAt mapping (later - 1) := by
    simp only [links]
    rw [history_get? found_other, getElem?_messages, found_other]
    rfl
  constructor
  · rintro ⟨listed, named⟩
    obtain ⟨later, other, found_other, rfl⟩ := exists_position listed
    rw [parent found_other] at named
    split_ifs at named with first
    obtain ⟨before, found_before, same⟩ := Option.map_eq_some_iff.mp named
    have adjacent : later - 1 = position := position_unique found_before found same
    rw [show position + 1 = later by omega, mem_kept found_other]
  · intro next
    obtain ⟨other, found_other, rfl⟩ := Option.map_eq_some_iff.mp next
    refine ⟨?_, ?_⟩
    · show other.1 ∈ (convertOpenAIMessages mapping).history.keys
      rw [history_keys]
      exact List.mem_map_of_mem (List.mem_of_getElem? found_other)
    · rw [parent found_other, if_neg (Nat.succ_ne_zero position), Nat.add_sub_cancel, mem_kept found]

theorem children_at {position : Nat} {entry : String × Node}
    (found : (kept mapping)[position]? = some entry) :
    (links (convertOpenAIMessages mapping).history).children entry.1 =
      if position + 1 = (kept mapping).length then [] else entry.2.children.getD [] := by
  simp only [links]
  rw [history_get? found, getElem?_messages, found]
  rfl

theorem history_closed : (links (convertOpenAIMessages mapping).history).Closed := by
  rintro child parent ⟨listed, named⟩
  obtain ⟨position, entry, found, rfl⟩ := exists_position listed
  simp only [links] at named
  rw [history_get? found, getElem?_messages, found] at named
  have above : (if position = 0 then none else idAt mapping (position - 1)) = some parent := named
  split_ifs at above
  obtain ⟨other, found_other, rfl⟩ := Option.map_eq_some_iff.mp above
  show other.1 ∈ (convertOpenAIMessages mapping).history.keys
  rw [history_keys]
  exact List.mem_map_of_mem (List.mem_of_getElem? found_other)

theorem before_of_path {child parent : String}
    (path : Relation.TransGen (links (convertOpenAIMessages mapping).history).Edge child parent) :
    ∃ (above below : Nat), above < below ∧ idAt mapping above = some parent ∧
      idAt mapping below = some child := by
  have one {child parent : String}
      (edge : (links (convertOpenAIMessages mapping).history).Edge child parent) :
      ∃ position, idAt mapping position = some parent ∧ idAt mapping (position + 1) = some child := by
    obtain ⟨position, entry, found, rfl⟩ := exists_position (history_closed child parent edge)
    exact ⟨position, mem_kept found, (edge_iff found).mp edge⟩
  induction path with
  | single edge =>
    obtain ⟨position, above, below⟩ := one edge
    exact ⟨position, position + 1, by omega, above, below⟩
  | tail _ edge ih =>
    obtain ⟨middle, below, before, of_middle, of_child⟩ := ih
    obtain ⟨position, above, next⟩ := one edge
    obtain ⟨entry, found, same⟩ := Option.map_eq_some_iff.mp of_middle
    obtain ⟨other, found_other, same_other⟩ := Option.map_eq_some_iff.mp next
    have adjacent : middle = position + 1 := position_unique found found_other (same.trans same_other.symm)
    exact ⟨position, below, by omega, above, of_child⟩

theorem history_acyclic : (links (convertOpenAIMessages mapping).history).Acyclic := by
  intro id cycle
  obtain ⟨above, below, before, of_above, of_below⟩ := before_of_path cycle
  obtain ⟨entry, found, same⟩ := Option.map_eq_some_iff.mp of_above
  obtain ⟨other, found_other, same_other⟩ := Option.map_eq_some_iff.mp of_below
  have same_position := position_unique found found_other (same.trans same_other.symm)
  omega

theorem upwards_from {position : Nat} {id : String} (found : idAt mapping position = some id) :
    Utils.messagesUpwards ChatMessage.parentId (convertOpenAIMessages mapping).history (position + 1)
      (some id) = some ((convertOpenAIMessages mapping).messages.take (position + 1)).reverse := by
  induction position generalizing id with
  | zero =>
    obtain ⟨entry, found_entry, rfl⟩ := Option.map_eq_some_iff.mp found
    have stored := @getElem?_messages mapping 0
    rw [found_entry, Option.map_some] at stored
    rw [Utils.messagesUpwards, history_get? found_entry, List.take_add_one, stored]
    rfl
  | succ position ih =>
    obtain ⟨entry, found_entry, rfl⟩ := Option.map_eq_some_iff.mp found
    have stored := @getElem?_messages mapping (position + 1)
    rw [found_entry, Option.map_some] at stored
    have above : ∃ before, idAt mapping position = some before := by
      obtain ⟨inside, _⟩ := List.getElem?_eq_some_iff.mp found_entry
      exact ⟨_, mem_kept (List.getElem?_eq_getElem (by omega : position < (kept mapping).length))⟩
    obtain ⟨before, found_before⟩ := above
    have named : (if position + 1 = 0 then none else idAt mapping (position + 1 - 1)) = some before := by
      rw [if_neg (Nat.succ_ne_zero position), Nat.add_sub_cancel, found_before]
    rw [named] at stored
    rw [Utils.messagesUpwards, history_get? found_entry, stored]
    simp only [new_chat, ih found_before, Option.map_some]
    rw [List.take_add_one (i := position + 1), stored]
    simp [new_chat]

theorem last_kept_iff (nonempty : kept mapping ≠ []) :
    (convertOpenAIMessages mapping).currentId ∈ (convertOpenAIMessages mapping).history.keys ↔
      mapping.entries.getLast? = (kept mapping).getLast? := by
  rw [currentId_eq, history_keys]
  rcases List.eq_nil_or_concat' mapping.entries with none_given | ⟨before, last, whole⟩
  · exact absurd (by rw [kept, none_given]; rfl) nonempty
  · have split : kept mapping = keptFrom false before ++
        (if accepted (false || !(keptFrom false before).isEmpty) last.2 then [last] else []) := by
      rw [kept, whole, keptFrom_append, keptFrom]
      rfl
    have ends : mapping.entries.getLast? = some last := by rw [whole, List.getLast?_concat]
    rw [ends, Option.map_some, Option.getD_some]
    constructor
    · intro listed
      split_ifs at split with joins
      · rw [split, List.getLast?_concat]
      · rw [split, List.append_nil] at listed
        have earlier := ((keptFrom_sublist false before).map Prod.fst).subset listed
        have distinct := mapping.unique
        rw [whole, Assoc.keys, List.map_append] at distinct
        exact absurd (List.mem_singleton.mpr rfl)
          (List.disjoint_of_nodup_append distinct earlier)
    · intro last_kept
      exact List.mem_map_of_mem (List.mem_of_getLast? last_kept.symm)

theorem next_iff : List.IsChain (fun first second => ∀ id, id ∈ first.2.children.getD [] ↔ id = second.1)
      (kept mapping) ↔
    ∀ id ∈ (convertOpenAIMessages mapping).history.keys, ∀ child,
      child ∈ (links (convertOpenAIMessages mapping).history).children id ↔
        (links (convertOpenAIMessages mapping).history).Edge child id := by
  rw [List.isChain_iff_getElem]
  constructor
  · intro next id listed child
    obtain ⟨position, entry, found, rfl⟩ := exists_position listed
    rw [edge_iff found, children_at found, idAt]
    obtain ⟨inside, same⟩ := List.getElem?_eq_some_iff.mp found
    split_ifs with last
    · rw [List.getElem?_eq_none (by omega)]
      simp
    · have more : position + 1 < (kept mapping).length := by omega
      rw [List.getElem?_eq_getElem more, ← same, next position more child]
      simp [eq_comm]
  · intro listed position more id
    have found := List.getElem?_eq_getElem (show position < (kept mapping).length by omega)
    have member : ((kept mapping)[position]).1 ∈ (convertOpenAIMessages mapping).history.keys := by
      rw [history_keys]
      exact List.mem_map_of_mem (List.getElem_mem _)
    have one := listed _ member id
    rw [edge_iff found, children_at found, if_neg (by omega), idAt, List.getElem?_eq_getElem more] at one
    rw [one]
    simp [eq_comm]

/-- The chain of what is kept makes a well-formed history exactly when the nodes are in sequence. -/
theorem imported_sound_iff (mapping : Dict String Node) :
    (kept mapping ≠ [] → Sound (convertOpenAIMessages mapping)) ↔
      (kept mapping ≠ [] → Sequential mapping) := by
  refine imp_congr_right (fun nonempty => ?_)
  constructor
  · intro sound
    exact ⟨(last_kept_iff nonempty).mp sound.current, next_iff.mpr sound.listed⟩
  · intro sequential
    have current := (last_kept_iff nonempty).mpr sequential.last
    refine ⟨current, next_iff.mp sequential.next, history_closed, history_acyclic,
      messages_ids ▸ kept_nodup mapping, (kept mapping).length, fun fuel enough => ?_⟩
    have some_kept := List.length_pos_iff.mpr nonempty
    have last_id : idAt mapping ((kept mapping).length - 1) =
        some (convertOpenAIMessages mapping).currentId := by
      rw [currentId_eq, sequential.last, idAt, ← List.getLast?_eq_getElem?,
        List.getLast?_eq_some_getLast nonempty]
      rfl
    have all : (convertOpenAIMessages mapping).messages.length = (kept mapping).length := by
      have same := congrArg List.length (@messages_ids mapping)
      simpa only [List.length_map] using same
    have walked := upwards_from last_id
    rw [Nat.sub_add_cancel some_kept, ← all, List.take_length, all] at walked
    rw [Utils.createMessagesList, Utils.messagesUpwards_mono enough walked, Option.map_some,
      List.reverse_reverse]

end

def said (role text : String) (children : List String) : Node where
  message := some {
    role := some role
    content := some ⟨some [.text text], none⟩
    model_slug := none
    create_time := none }
  children := some children

def regenerated : Dict String Node :=
  Dict.ofEntries [("root", ⟨none, some ["question"]⟩), ("question", said "user" "When?" ["first", "second"]),
    ("first", said "assistant" "Today." []), ("second", said "assistant" "Tomorrow." ["search"]),
    ("search", said "tool" "Found." [])]

/-- The second answer stands below the first, the question still lists both, and the current message is
the tool's, which is not kept. -/
theorem regenerated_unsound :
    ¬ (kept regenerated ≠ [] → Sound (convertOpenAIMessages regenerated)) ∧
      (links (convertOpenAIMessages regenerated).history).children "question" = ["first", "second"] ∧
      (links (convertOpenAIMessages regenerated).history).parent "second" = some "first" ∧
      (convertOpenAIMessages regenerated).currentId = "search" := by
  refine ⟨fun sound => ?_, by decide +kernel, by decide +kernel, by decide +kernel⟩
  have current := (sound (by decide +kernel)).current
  exact absurd current (by decide +kernel)

end OpenWebui.Imports
