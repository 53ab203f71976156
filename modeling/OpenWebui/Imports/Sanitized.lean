import OpenWebui.Chats.MessagesMap
import OpenWebui.Imports.ChatGpt
import OpenWebui.Utils.Branch

/-! `sanitizeHistory`, which repairs the messages of a stored chat as it is opened, and when the
opened chat can be shown. -/

namespace OpenWebui.Sanitized

open Chats (linkParent linkChildren)

/-- What `currentId` holds. -/
inductive Id
  | undefined
  | null
  | id (text : String)
deriving DecidableEq

/-- The property that `history.messages[id]` reads. -/
def Id.key : Id → String
  | .undefined => "undefined"
  | .null => "null"
  | .id text => text

/-- A `history` object as it is stored, its messages in the order of their keys. -/
structure History where
  messages : Option (Dict String Json)
  currentId : Id

def holds : Json → Bool
  | .null => false
  | .bool value => value
  | .num value => decide (value ≠ 0)
  | .str value => decide (value ≠ "")
  | .arr _ => true
  | .obj _ => true

abbrev Messages := Dict String Fields

def usable (messages : Dict String Json) : Messages := messages.filterMapValue Json.obj?

/-- The `childrenIds` array, if it is one. -/
def childItems (message : Fields) : Option (List Json) :=
  match message.lookup "childrenIds" with
  | some (.arr items) => some items
  | _ => none

def canonical (id : String) (message : Fields) : Fields :=
  let message :=
    if message.lookup "id" = some (.str id) then message else Assoc.set message "id" (.str id)
  if (childItems message).isSome then message else Assoc.set message "childrenIds" (.arr [])

/-- `parentByChildId`. -/
def parentByChildId (messages : Messages) : Dict String String :=
  messages.entries.foldl (fun table entry =>
    (linkChildren entry.2).foldl (fun table childId => table.set childId entry.1) table) .empty

/-- `message.timestamp ?? 0`. -/
def timestamp (message : Fields) : Rat :=
  match message.lookup "timestamp" with
  | some (.num value) => value
  | _ => 0

def later (latest : Option String × Rat) (entry : String × Fields) : Option String × Rat :=
  if linkChildren entry.2 = [] ∧ timestamp entry.2 > latest.2 then (some entry.1, timestamp entry.2)
  else latest

/-- `latestLeafId ?? Object.keys(history.messages)[0] ?? null`. -/
def recoveredId (messages : Messages) : Id :=
  match ((messages.entries.foldl later (none, -1)).1).or messages.keys.head? with
  | some id => .id id
  | none => .null

def currentIdOf (messages : Messages) (currentId : Id) : Id :=
  match messages.get? currentId.key with
  | some currentMessage =>
    if holds (getField currentMessage "id") && holds (getField currentMessage "role") then currentId
    else recoveredId messages
  | none => recoveredId messages

def roleOf (messages : Messages) (message : Fields) : String :=
  let parent := ((linkParent message).filter (· ≠ "")).bind messages.get?
  let parentRole := parent.bind (fun parent => parent.lookup "role")
  if parentRole = some (.str "user") then "assistant"
  else if parentRole = some (.str "assistant") then "user"
  else if holds (getField message "model") || holds (getField message "usage") ||
      (message.lookup "done").isSome then "assistant"
  else "user"

def reconstruct (parents : Dict String String) (messages : Messages) (id : String) : Messages :=
  match messages.get? id with
  | none => messages
  | some message =>
    if holds (getField message "role") && (message.lookup "parentId").isSome then messages
    else
      let message :=
        if (message.lookup "parentId").isNone then
          Assoc.set message "parentId" (((parents.get? id).map Json.str).getD .null)
        else message
      let message :=
        if holds (getField message "role") then message
        else Assoc.set message "role" (.str (roleOf messages message))
      messages.set id message

def pruned (messages : Messages) (message : Fields) : Fields :=
  Assoc.set message "childrenIds" (.arr (((childItems message).getD []).filter (fun childId =>
    childId.str?.any (fun childId => (messages.get? childId).isSome))))

def sanitizeMessages (messages : Dict String Json) : Messages :=
  let messages := (usable messages).mapValue canonical
  let rebuilt := messages.keys.foldl (reconstruct (parentByChildId messages)) messages
  rebuilt.mapValue (fun _ message => pruned rebuilt message)

def sanitizeHistory (history : History) : History :=
  match history.messages with
  | none => history
  | some messages =>
    { messages := some ((sanitizeMessages messages).mapValue (fun _ message => Json.obj message))
      currentId := currentIdOf ((usable messages).mapValue canonical) history.currentId }

/-- `createMessagesList(history, history.currentId)`, which reads a property of the messages. -/
def shownMessages (fuel : Nat) (history : History) : Except PyError (List Fields) :=
  match history.currentId with
  | .id currentId =>
    match history.messages with
    | none => .error .typeError
    | some messages =>
      ((Utils.createMessagesList linkParent (usable messages) fuel (some currentId)).map .ok).getD
        (.error .diverges)
  | _ => .ok []

/-- `get_message_list` on the same messages and id. -/
def sentMessages (fuel : Nat) (history : History) : Except PyError (List Fields) :=
  match history.messages, history.currentId with
  | some messages, .id currentId => Utils.get_message_list fuel messages currentId
  | _, _ => .ok []

theorem linkChildren_eq (message : Fields) :
    linkChildren message = ((childItems message).getD []).filterMap Json.str? := by
  unfold linkChildren childItems
  cases message.lookup "childrenIds" with
  | none => rfl
  | some value => cases value <;> rfl

theorem lookup_canonical_id (id : String) (message : Fields) :
    (canonical id message).lookup "id" = some (.str id) := by
  unfold canonical
  dsimp only
  split_ifs with named listed
  · exact named
  · simpa using named
  · simp
  · simp

theorem lookup_canonical {key : String} (no_id : key ≠ "id") (no_children : key ≠ "childrenIds")
    (id : String) (message : Fields) : (canonical id message).lookup key = message.lookup key := by
  unfold canonical
  dsimp only
  split_ifs <;> simp [no_id.symm, no_children.symm]

theorem childItems_set {message : Fields} {key : String} (other : key ≠ "childrenIds") (value : Json) :
    childItems (Assoc.set message key value) = childItems message := by
  unfold childItems
  rw [Assoc.lookup_set, if_neg other]

theorem childItems_canonical (id : String) (message : Fields) :
    childItems (canonical id message) = some ((childItems message).getD []) := by
  have named : childItems (if message.lookup "id" = some (.str id) then message
      else Assoc.set message "id" (.str id)) = childItems message := by
    split_ifs
    · rfl
    · exact childItems_set (by decide) _
  unfold canonical
  dsimp only
  rw [named]
  cases listed : childItems message with
  | some items => simpa [listed] using named
  | none =>
    rw [if_neg (by simp), childItems, Assoc.lookup_set, if_pos rfl]
    rfl

theorem linkChildren_canonical (id : String) (message : Fields) :
    linkChildren (canonical id message) = linkChildren message := by
  rw [linkChildren_eq, linkChildren_eq, childItems_canonical, Option.getD_some]

/-- A message with the parent that is given or found and with a role. -/
structure Rebuilt (parents : Dict String String) (id : String) (old new : Fields) : Prop where
  others : ∀ key, key ≠ "parentId" → key ≠ "role" → new.lookup key = old.lookup key
  parent : new.lookup "parentId" =
    some ((old.lookup "parentId").getD (((parents.get? id).map Json.str).getD .null))
  role : holds (getField new "role") = true

theorem getField_eq (message : Fields) (key : String) :
    getField message key = (message.lookup key).getD .null := rfl

theorem reconstruct_other {parents : Dict String String} {messages : Messages} {id other : String}
    (different : id ≠ other) : (reconstruct parents messages id).get? other = messages.get? other := by
  unfold reconstruct
  cases messages.get? id with
  | none => rfl
  | some message =>
    dsimp only
    split_ifs
    · rfl
    all_goals rw [Dict.get?_set, if_neg different]

theorem keys_reconstruct (parents : Dict String String) (messages : Messages) (id : String) :
    (reconstruct parents messages id).keys = messages.keys := by
  unfold reconstruct
  cases found : messages.get? id with
  | none => rfl
  | some message =>
    dsimp only
    split_ifs
    · rfl
    all_goals exact Dict.keys_set_of_mem (Dict.mem_keys_of_get? found) _

theorem holds_roleOf (messages : Messages) (message : Fields) :
    holds (.str (roleOf messages message)) = true := by
  unfold roleOf
  dsimp only
  split_ifs <;> decide

theorem reconstruct_same {parents : Dict String String} {messages : Messages} {id : String} {old : Fields}
    (found : messages.get? id = some old) :
    ∃ new, (reconstruct parents messages id).get? id = some new ∧ Rebuilt parents id old new := by
  unfold reconstruct
  rw [found]
  dsimp only
  by_cases sound : (holds (getField old "role") && (old.lookup "parentId").isSome) = true
  · rw [if_pos sound]
    obtain ⟨role, given⟩ := Bool.and_eq_true_iff.mp sound
    obtain ⟨parent, given⟩ := Option.isSome_iff_exists.mp given
    exact ⟨old, found, fun _ _ _ => rfl, by rw [given]; rfl, role⟩
  · rw [if_neg sound]
    generalize linked : (if (old.lookup "parentId").isNone = true then
      Assoc.set old "parentId" (((parents.get? id).map Json.str).getD .null) else old) = message
    have parent : message.lookup "parentId" =
        some ((old.lookup "parentId").getD (((parents.get? id).map Json.str).getD .null)) := by
      rw [← linked]
      cases given : old.lookup "parentId" with
      | none => simp
      | some value => simp [given]
    have others : ∀ key, key ≠ "parentId" → message.lookup key = old.lookup key := by
      intro key no_parent
      rw [← linked]
      split_ifs
      · rw [Assoc.lookup_set, if_neg no_parent.symm]
      · rfl
    refine ⟨_, by rw [Dict.get?_set, if_pos rfl], ?_⟩
    split_ifs with role
    · exact ⟨fun key no_parent _ => others key no_parent, parent, by simpa using role⟩
    · refine ⟨fun key no_parent no_role => ?_, ?_, ?_⟩
      · rw [Assoc.lookup_set, if_neg no_role.symm, others key no_parent]
      · rw [Assoc.lookup_set, if_neg (by decide), parent]
      · rw [getField_eq, Assoc.lookup_set, if_pos rfl]
        exact holds_roleOf _ _

theorem keys_reconstruct_all (parents : Dict String String) (keys : List String) (messages : Messages) :
    (keys.foldl (reconstruct parents) messages).keys = messages.keys := by
  induction keys generalizing messages with
  | nil => rfl
  | cons key rest ih => rw [List.foldl_cons, ih, keys_reconstruct]

theorem reconstruct_all {parents : Dict String String} {keys : List String} (distinct : keys.Nodup)
    {messages : Messages} {id : String} :
    (id ∉ keys → (keys.foldl (reconstruct parents) messages).get? id = messages.get? id) ∧
      (id ∈ keys → ∀ old, messages.get? id = some old →
        ∃ new, (keys.foldl (reconstruct parents) messages).get? id = some new ∧
          Rebuilt parents id old new) := by
  induction keys generalizing messages with
  | nil => exact ⟨fun _ => rfl, fun listed => nomatch listed⟩
  | cons key rest ih =>
    rw [List.nodup_cons] at distinct
    rw [List.foldl_cons]
    obtain ⟨outside, inside⟩ := @ih distinct.2 (reconstruct parents messages key)
    refine ⟨fun absent => ?_, fun listed old found => ?_⟩
    · rw [List.mem_cons, not_or] at absent
      rw [outside absent.2, reconstruct_other (Ne.symm absent.1)]
    · rcases List.mem_cons.mp listed with rfl | later
      · obtain ⟨new, rebuilt_at, rebuilt⟩ := @reconstruct_same parents _ _ _ found
        exact ⟨new, by rw [outside distinct.1, rebuilt_at], rebuilt⟩
      · have different : key ≠ id := fun same => distinct.1 (same ▸ later)
        exact inside later old (by rw [reconstruct_other different, found])

def lister (messages : Messages) (childId : String) : Option String :=
  (messages.entries.reverse.find? (fun entry => decide (childId ∈ linkChildren entry.2))).map Prod.fst

theorem get?_listed (table : Dict String String) (children : List String) (id query : String) :
    (children.foldl (fun table childId => table.set childId id) table).get? query =
      if query ∈ children then some id else table.get? query := by
  induction children generalizing table with
  | nil => simp
  | cons child rest ih =>
    rw [List.foldl_cons, ih, Dict.get?_set]
    by_cases later : query ∈ rest
    · simp [later]
    · by_cases same : child = query
      · simp [same]
      · simp [later, same, Ne.symm same]

theorem get?_parentByChildId (messages : Messages) (childId : String) :
    (parentByChildId messages).get? childId = lister messages childId := by
  have each : ∀ (entries : List (String × Fields)) (table : Dict String String),
      (entries.foldl (fun table entry => (linkChildren entry.2).foldl
        (fun table childId => table.set childId entry.1) table) table).get? childId =
        ((entries.reverse.find? (fun entry => decide (childId ∈ linkChildren entry.2))).map Prod.fst).or
          (table.get? childId) := by
    intro entries
    induction entries with
    | nil => exact fun _ => rfl
    | cons entry rest ih =>
      intro table
      rw [List.foldl_cons, ih, get?_listed, List.reverse_cons, List.find?_append]
      cases rest.reverse.find? (fun entry => decide (childId ∈ linkChildren entry.2)) with
      | some _ => rfl
      | none =>
        by_cases listed : childId ∈ linkChildren entry.2
        · simp [listed]
        · simp [listed]
  rw [parentByChildId, each, lister, Dict.get?_empty, Option.or_none]

theorem lister_canonical (messages : Messages) (childId : String) :
    lister (messages.mapValue canonical) childId = lister messages childId := by
  rw [lister, lister, Dict.mapValue, ← List.map_reverse, List.find?_map, Option.map_map]
  simp only [Function.comp_def, linkChildren_canonical]

def parentValue (messages : Messages) (id : String) (message : Fields) : Json :=
  (message.lookup "parentId").getD (((lister messages id).map Json.str).getD .null)

/-- A message of `messages` as it is after the repair. -/
structure Repaired (messages : Messages) (id : String) (old new : Fields) : Prop where
  named : new.lookup "id" = some (.str id)
  role : holds (getField new "role") = true
  parent : new.lookup "parentId" = some (parentValue messages id old)
  children : new.lookup "childrenIds" = some (.arr (((childItems old).getD []).filter (fun childId =>
    childId.str?.any (fun childId => decide (childId ∈ messages.keys)))))
  time : timestamp new = timestamp old

theorem keys_sanitizeMessages (messages : Dict String Json) :
    (sanitizeMessages messages).keys = (usable messages).keys := by
  rw [sanitizeMessages]
  simp only [Dict.keys_mapValue, keys_reconstruct_all]

theorem lookup_pruned {key : String} (no_children : key ≠ "childrenIds") (messages : Messages)
    (message : Fields) : (pruned messages message).lookup key = message.lookup key := by
  rw [pruned, Assoc.lookup_set, if_neg no_children.symm]

theorem lookup_pruned_children (messages : Messages) (message : Fields) :
    (pruned messages message).lookup "childrenIds" =
      some (.arr (((childItems message).getD []).filter (fun childId =>
        childId.str?.any (fun childId => decide (childId ∈ messages.keys))))) := by
  have stored : ∀ childId, (messages.get? childId).isSome = decide (childId ∈ messages.keys) := by
    intro childId
    rw [Bool.eq_iff_iff, decide_eq_true_iff, Dict.get?_isSome]
  rw [pruned, Assoc.lookup_set, if_pos rfl]
  simp only [stored]

theorem repaired {messages : Dict String Json} {id : String} {old : Fields}
    (found : (usable messages).get? id = some old) :
    ∃ new, (sanitizeMessages messages).get? id = some new ∧ Repaired (usable messages) id old new := by
  have listed : id ∈ ((usable messages).mapValue canonical).keys := by
    rw [Dict.keys_mapValue]
    exact Dict.mem_keys_of_get? found
  have found_canonical : ((usable messages).mapValue canonical).get? id = some (canonical id old) := by
    rw [Dict.get?_mapValue, found]
    rfl
  obtain ⟨middle, found_middle, rebuilt⟩ :=
    (@reconstruct_all (parentByChildId ((usable messages).mapValue canonical)) _
      ((usable messages).mapValue canonical).keys_nodup _ _).2 listed _ found_canonical
  have children : childItems middle = some ((childItems old).getD []) := by
    rw [← childItems_canonical id old, childItems, childItems,
      rebuilt.others "childrenIds" (by decide) (by decide)]
  refine ⟨_, by rw [sanitizeMessages, Dict.get?_mapValue, found_middle]; rfl, ?_⟩
  refine ⟨?_, ?_, ?_, ?_, ?_⟩
  · rw [lookup_pruned (by decide), rebuilt.others "id" (by decide) (by decide), lookup_canonical_id]
  · rw [getField_eq, lookup_pruned (by decide)]
    exact rebuilt.role
  · rw [lookup_pruned (by decide), rebuilt.parent, get?_parentByChildId, lister_canonical,
      lookup_canonical (by decide) (by decide), parentValue]
  · rw [lookup_pruned_children, children, keys_reconstruct_all, Dict.keys_mapValue, Option.getD_some]
  · rw [timestamp, lookup_pruned (by decide), rebuilt.others "timestamp" (by decide) (by decide),
      lookup_canonical (by decide) (by decide), timestamp]

theorem repair_of_sanitized {messages : Dict String Json} {id : String} {new : Fields}
    (found : (sanitizeMessages messages).get? id = some new) :
    ∃ old, (usable messages).get? id = some old ∧ Repaired (usable messages) id old new := by
  have listed := Dict.mem_keys_of_get? found
  rw [keys_sanitizeMessages] at listed
  obtain ⟨old, found_old⟩ := Dict.exists_of_mem_keys listed
  obtain ⟨same, found_same, repair⟩ := repaired found_old
  obtain rfl : new = same := Option.some.inj (found.symm.trans found_same)
  exact ⟨old, found_old, repair⟩

/-- Every message has its key as its id, a role, a parent and an array of children that are messages. -/
structure CleanMessage (messages : Messages) (id : String) (message : Fields) : Prop where
  named : message.lookup "id" = some (.str id)
  role : holds (getField message "role") = true
  parent : (message.lookup "parentId").isSome = true
  children : ∃ items, message.lookup "childrenIds" = some (.arr items) ∧
    ∀ item ∈ items, ∃ childId ∈ messages.keys, item = .str childId

def Clean (messages : Messages) : Prop :=
  ∀ id message, messages.get? id = some message → CleanMessage messages id message

theorem clean_sanitizeMessages (messages : Dict String Json) : Clean (sanitizeMessages messages) := by
  intro id new found
  obtain ⟨old, found_old, repair⟩ := repair_of_sanitized found
  refine ⟨repair.named, repair.role, by rw [repair.parent]; rfl, _, repair.children, fun item member => ?_⟩
  obtain ⟨childId, text, present⟩ := Option.any_eq_true _ _ |>.mp (List.mem_filter.mp member).2
  exact ⟨childId, keys_sanitizeMessages messages ▸ of_decide_eq_true present, Json.str?_eq_some.mp text⟩

theorem usable_objects (messages : Messages) :
    usable (messages.mapValue (fun _ message => Json.obj message)) = messages := by
  have read : ∀ key, (usable (messages.mapValue (fun _ message => Json.obj message))).get? key =
      messages.get? key := by
    intro key
    rw [usable, Dict.get?_filterMapValue, Dict.get?_mapValue]
    cases messages.get? key <;> rfl
  refine Dict.ext_of_keys ?_ read
  rw [usable, Dict.keys_filterMapValue, Dict.keys_mapValue]
  refine List.filter_eq_self.mpr (fun key listed => ?_)
  obtain ⟨message, found⟩ := Dict.exists_of_mem_keys listed
  rw [Dict.get?_mapValue, found]
  rfl

theorem canonical_clean {messages : Messages} {id : String} {message : Fields}
    (clean : CleanMessage messages id message) : canonical id message = message := by
  obtain ⟨items, listed, _⟩ := clean.children
  have some_items : (childItems message).isSome = true := by rw [childItems, listed]; rfl
  rw [canonical, if_pos clean.named, if_pos some_items]

theorem reconstruct_clean {messages : Messages} (clean : Clean messages) (parents : Dict String String)
    (id : String) : reconstruct parents messages id = messages := by
  unfold reconstruct
  cases found : messages.get? id with
  | none => rfl
  | some message =>
    obtain ⟨_, role, parent, _⟩ := clean id message found
    simp only [role, parent, Bool.and_self, if_true]

theorem pruned_clean {messages : Messages} {id : String} {message : Fields}
    (clean : CleanMessage messages id message) : pruned messages message = message := by
  obtain ⟨items, listed, existing⟩ := clean.children
  have kept : items.filter (fun childId =>
      childId.str?.any (fun childId => (messages.get? childId).isSome)) = items := by
    refine List.filter_eq_self.mpr (fun item member => ?_)
    obtain ⟨childId, present, rfl⟩ := existing item member
    exact Dict.get?_isSome.mpr present
  have some_items : childItems message = some items := by rw [childItems, listed]
  rw [pruned, some_items, Option.getD_some, kept]
  exact Assoc.set_of_lookup listed

theorem mapValue_clean {messages : Messages} {change : String → Fields → Fields}
    (same : ∀ id message, messages.get? id = some message → change id message = message) :
    messages.mapValue change = messages := by
  refine Dict.ext_of_keys (Dict.keys_mapValue messages change) (fun id => ?_)
  rw [Dict.get?_mapValue]
  cases found : messages.get? id with
  | none => rfl
  | some message => rw [Option.map_some, same id message found]

theorem sanitizeMessages_clean {messages : Messages} (clean : Clean messages) :
    sanitizeMessages (messages.mapValue (fun _ message => Json.obj message)) = messages := by
  have kept (keys : List String) (parents : Dict String String) :
      keys.foldl (reconstruct parents) messages = messages := by
    induction keys with
    | nil => rfl
    | cons key rest ih => rw [List.foldl_cons, reconstruct_clean clean, ih]
  rw [sanitizeMessages, usable_objects]
  simp only [mapValue_clean (fun id message found => canonical_clean (clean id message found)), kept]
  exact mapValue_clean (fun id message found => pruned_clean (clean id message found))

/-- A leaf, with its time, that is later than `start` and all leaves before it and not earlier than
those after it. -/
structure LatestLeaf (leaves : List (String × Option Rat)) (start : Rat) (id : String) (time : Rat) :
    Prop where
  split : ∃ before after, leaves = before ++ (id, some time) :: after ∧
    (∀ leaf ∈ before, ∀ other ∈ leaf.2, other < time) ∧ ∀ leaf ∈ after, ∀ other ∈ leaf.2, other ≤ time
  late : start < time

def leaves (children : Fields → List String) (messages : Messages) : List (String × Option Rat) :=
  messages.entries.map (fun entry =>
    (entry.1, if children entry.2 = [] then some (timestamp entry.2) else none))

def laterLeaf (latest : Option String × Rat) (leaf : String × Option Rat) : Option String × Rat :=
  match leaf.2 with
  | some time => if time > latest.2 then (some leaf.1, time) else latest
  | none => latest

theorem later_eq (messages : Messages) (start : Option String × Rat) :
    messages.entries.foldl later start = (leaves linkChildren messages).foldl laterLeaf start := by
  rw [leaves, List.foldl_map]
  refine List.foldl_ext _ _ _ (fun latest entry _ => ?_)
  rw [later, laterLeaf]
  by_cases leaf : linkChildren entry.2 = []
  · simp [leaf]
  · simp [leaf]

theorem laterLeaf_early {leaves : List (String × Option Rat)} {start : Option String × Rat}
    (early : ∀ leaf ∈ leaves, ∀ time ∈ leaf.2, time ≤ start.2) : leaves.foldl laterLeaf start = start := by
  induction leaves with
  | nil => rfl
  | cons leaf rest ih =>
    have stays : laterLeaf start leaf = start := by
      rw [laterLeaf]
      cases found : leaf.2 with
      | none => rfl
      | some time => exact if_neg (not_lt.mpr (early leaf List.mem_cons_self time found))
    rw [List.foldl_cons, stays, ih (fun other member => early other (List.mem_cons_of_mem _ member))]

theorem laterLeaf_below {leaves : List (String × Option Rat)} {start : Option String × Rat} {bound : Rat}
    (below : ∀ leaf ∈ leaves, ∀ time ∈ leaf.2, time < bound) (start_below : start.2 < bound) :
    (leaves.foldl laterLeaf start).2 < bound := by
  induction leaves generalizing start with
  | nil => exact start_below
  | cons leaf rest ih =>
    refine ih (fun other member => below other (List.mem_cons_of_mem _ member)) ?_
    rw [laterLeaf]
    cases found : leaf.2 with
    | none => exact start_below
    | some time =>
      dsimp only
      split_ifs
      · exact below leaf List.mem_cons_self time found
      · exact start_below

theorem LatestLeaf.foldl_eq {leaves : List (String × Option Rat)} {start : Option String × Rat}
    {id : String} {time : Rat} (latest : LatestLeaf leaves start.2 id time) :
    leaves.foldl laterLeaf start = (some id, time) := by
  obtain ⟨before, after, rfl, earlier, no_later⟩ := latest.split
  have below := laterLeaf_below earlier latest.late
  have here : laterLeaf (before.foldl laterLeaf start) (id, some time) = (some id, time) := by
    rw [laterLeaf]
    exact if_pos below
  rw [List.foldl_append, List.foldl_cons, here]
  exact laterLeaf_early no_later

theorem exists_latestLeaf (leaves : List (String × Option Rat)) (start : Rat) :
    (∀ leaf ∈ leaves, ∀ time ∈ leaf.2, time ≤ start) ∨ ∃ id time, LatestLeaf leaves start id time := by
  induction leaves generalizing start with
  | nil => exact Or.inl (fun _ member => nomatch member)
  | cons leaf rest ih =>
    obtain ⟨id, found⟩ := leaf
    -- the first leaf is the latest one so far if it is late enough
    by_cases late : ∃ time, found = some time ∧ start < time
    · obtain ⟨time, rfl, late⟩ := late
      rcases ih time with early | ⟨other, last, latest⟩
      · exact Or.inr ⟨id, time, ⟨[], rest, rfl, (fun _ member => nomatch member), early⟩, late⟩
      · obtain ⟨before, after, rfl, earlier, no_later⟩ := latest.split
        refine Or.inr ⟨other, last, ⟨(id, some time) :: before, after, rfl, ?_, no_later⟩,
          late.trans latest.late⟩
        intro item member since read
        rcases List.mem_cons.mp member with rfl | inside
        · obtain rfl : time = since := Option.some.inj read
          exact latest.late
        · exact earlier item inside since read
    · have early : ∀ time ∈ found, time ≤ start :=
        fun time read => not_lt.mp (fun after => late ⟨time, read, after⟩)
      rcases ih start with rest_early | ⟨other, last, latest⟩
      · refine Or.inl (fun item member time read => ?_)
        rcases List.mem_cons.mp member with rfl | inside
        · exact early time read
        · exact rest_early item inside time read
      · obtain ⟨before, after, rfl, earlier, no_later⟩ := latest.split
        refine Or.inr ⟨other, last, ⟨(id, found) :: before, after, rfl, ?_, no_later⟩, latest.late⟩
        intro item member since read
        rcases List.mem_cons.mp member with rfl | inside
        · exact (early since read).trans_lt latest.late
        · exact earlier item inside since read

/-- The current id is that of a message with a role, and not empty. -/
def Stays (messages : Messages) (currentId : Id) : Prop :=
  currentId.key ≠ "" ∧ ∃ message, messages.get? currentId.key = some message ∧
    holds (getField message "role") = true

/-- The message that is current when the chat is opened: the current one, or else the latest leaf, or else
the first message. -/
inductive Opens (children : Fields → List String) (messages : Messages) (currentId : Id) (id : String) :
    Prop
  | stays (current : currentId = .id id) (stays : Stays messages currentId)
  | latest (lost : ¬ Stays messages currentId) {time : Rat}
      (latest : LatestLeaf (leaves children messages) (-1) id time)
  | first (lost : ¬ Stays messages currentId)
      (early : ∀ leaf ∈ leaves children messages, ∀ time ∈ leaf.2, time ≤ -1)
      (first : messages.keys.head? = some id)

/-- The messages have their keys as ids. -/
def Named (messages : Messages) : Prop :=
  ∀ id message, messages.get? id = some message → message.lookup "id" = some (.str id)

theorem currentIdOf_stays {messages : Messages} (named : Named messages) {currentId : Id}
    (stays : Stays messages currentId) : currentIdOf messages currentId = currentId := by
  obtain ⟨filled, message, found, role⟩ := stays
  have id_holds : holds (getField message "id") = true := by
    rw [getField_eq, named _ message found]
    exact decide_eq_true filled
  simp only [currentIdOf, found, id_holds, role, Bool.and_self, if_true]

theorem currentIdOf_lost {messages : Messages} (named : Named messages) {currentId : Id}
    (lost : ¬ Stays messages currentId) : currentIdOf messages currentId = recoveredId messages := by
  unfold currentIdOf
  cases found : messages.get? currentId.key with
  | none => rfl
  | some message =>
    refine if_neg (fun both => lost ?_)
    obtain ⟨id_holds, role⟩ := Bool.and_eq_true_iff.mp both
    rw [getField_eq, named _ message found] at id_holds
    exact ⟨of_decide_eq_true id_holds, message, found, role⟩

theorem recoveredId_eq {messages : Messages} {id : String} :
    recoveredId messages = .id id ↔
      (∃ time, LatestLeaf (leaves linkChildren messages) (-1) id time) ∨
        (∀ leaf ∈ leaves linkChildren messages, ∀ time ∈ leaf.2, time ≤ -1) ∧
          messages.keys.head? = some id := by
  have whole : recoveredId messages =
      match (((leaves linkChildren messages).foldl laterLeaf (none, -1)).1).or messages.keys.head? with
      | some id => .id id
      | none => .null := by
    rw [recoveredId, later_eq]
  rw [whole]
  rcases exists_latestLeaf (leaves linkChildren messages) (-1) with early | ⟨other, last, latest⟩
  · have none_late : ¬ ∃ time, LatestLeaf (leaves linkChildren messages) (-1) id time := by
      rintro ⟨time, latest⟩
      obtain ⟨before, after, split, _⟩ := latest.split
      have listed : (id, some time) ∈ leaves linkChildren messages := by simp [split]
      exact absurd latest.late (not_lt.mpr (early _ listed time rfl))
    rw [laterLeaf_early early, Option.none_or]
    cases found : messages.keys.head? with
    | none => simp [none_late]
    | some first =>
      simp only [Id.id.injEq, none_late, false_or, Option.some.injEq]
      exact ⟨fun same => ⟨early, same⟩, And.right⟩
  · have reached : (leaves linkChildren messages).foldl laterLeaf (none, -1) = (some other, last) :=
      latest.foldl_eq
    rw [reached, Option.some_or]
    simp only [Id.id.injEq]
    constructor
    · rintro rfl
      exact Or.inl ⟨last, latest⟩
    · rintro (⟨time, too⟩ | ⟨early, _⟩)
      · have reached_too : (leaves linkChildren messages).foldl laterLeaf (none, -1) = (some id, time) :=
          too.foldl_eq
        rw [reached] at reached_too
        exact Option.some.inj (congrArg Prod.fst reached_too)
      · obtain ⟨before, after, split, _⟩ := latest.split
        have listed : (other, some last) ∈ leaves linkChildren messages := by simp [split]
        exact absurd latest.late (not_lt.mpr (early _ listed last rfl))

theorem opens_iff {messages : Messages} (named : Named messages) {currentId : Id} {id : String} :
    currentIdOf messages currentId = .id id ↔ Opens linkChildren messages currentId id := by
  by_cases stays : Stays messages currentId
  · rw [currentIdOf_stays named stays]
    constructor
    · exact fun current => .stays current stays
    · intro opens
      cases opens with
      | stays current _ => exact current
      | latest lost _ => exact absurd stays lost
      | first lost _ _ => exact absurd stays lost
  · rw [currentIdOf_lost named stays, recoveredId_eq]
    constructor
    · rintro (⟨time, latest⟩ | ⟨early, first⟩)
      · exact .latest stays latest
      · exact .first stays early first
    · intro opens
      cases opens with
      | stays _ there => exact absurd there stays
      | latest _ latest => exact Or.inl ⟨_, latest⟩
      | first _ early first => exact Or.inr ⟨early, first⟩

/-- The walk up from a message ends, without an empty parent id that there is a message for. `above` is
`none` for a message that is missing. -/
inductive Ends (above : String → Option (Option String)) : String → Prop
  | missing {id : String} (missing : above id = none) : Ends above id
  | root {id : String} (root : above id = some none) : Ends above id
  | under {id parent : String} (named : above id = some (some parent))
      (told : parent = "" → above "" = none) (ends : Ends above parent) : Ends above id

/-- Parents are null or ids. -/
def Linked (messages : Messages) : Prop :=
  ∀ id message, messages.get? id = some message →
    getField message "parentId" = .null ∨ ∃ parent, getField message "parentId" = .str parent

section

variable {messages : Messages}

theorem mem_upwards {fuel : Nat} {start : Option String} {list : List Fields}
    (walked : Utils.messagesUpwards linkParent messages fuel start = some list) {message : Fields}
    (member : message ∈ list) :
    ∃ id less above, messages.get? id = some message ∧ above.length ≤ list.length ∧
      Utils.messagesUpwards linkParent messages less (some id) = some above := by
  induction fuel generalizing start list with
  | zero =>
    cases start with
    | none =>
      cases walked
      exact nomatch member
    | some id => exact nomatch walked
  | succ fuel ih =>
    cases start with
    | none =>
      cases walked
      exact nomatch member
    | some id =>
      have whole := walked
      rw [Utils.messagesUpwards] at walked
      cases found : messages.get? id with
      | none =>
        simp only [found, Option.some.injEq] at walked
        exact nomatch walked ▸ member
      | some first =>
        simp only [found] at walked
        obtain ⟨rest, walked_rest, rfl⟩ := Option.map_eq_some_iff.mp walked
        rcases List.mem_cons.mp member with rfl | inside
        · exact ⟨id, fuel + 1, _, found, le_refl _, whole⟩
        · obtain ⟨other, less, above, stored, shorter, walked_other⟩ := ih walked_rest inside
          exact ⟨other, less, above, stored, shorter.trans (Nat.le_succ _), walked_other⟩

theorem upwards_unique {first second : Nat} {start : Option String} {one other : List Fields}
    (walked : Utils.messagesUpwards linkParent messages first start = some one)
    (walked_other : Utils.messagesUpwards linkParent messages second start = some other) : one = other := by
  have same := Utils.messagesUpwards_mono (le_max_left first second) walked
  rw [Utils.messagesUpwards_mono (le_max_right first second) walked_other] at same
  exact (Option.some.inj same).symm

theorem not_again {fuel : Nat} {id : String} {message : Fields} {above : List Fields} (named : Named messages)
    (walked : Utils.messagesUpwards linkParent messages fuel (some id) = some (message :: above))
    {less : Nat} {start : Option String}
    (walked_above : Utils.messagesUpwards linkParent messages less start = some above) {other : Fields}
    (member : other ∈ above) : getField other "id" ≠ .str id := by
  intro same
  obtain ⟨key, rounds, again, stored, shorter, walked_again⟩ := mem_upwards walked_above member
  have key_same : key = id := by
    rw [getField_eq, named key other stored, Option.getD_some] at same
    exact Json.str.inj same
  rw [key_same] at walked_again
  rw [upwards_unique walked_again walked, List.length_cons] at shorter
  omega

def aboveOf (messages : Messages) (id : String) : Option (Option String) :=
  (messages.get? id).map linkParent

theorem upwards_nil {fuel : Nat} {id : String}
    (walked : Utils.messagesUpwards linkParent messages fuel (some id) = some []) :
    aboveOf messages id = none := by
  cases fuel with
  | zero => cases walked
  | succ fuel =>
    rw [Utils.messagesUpwards] at walked
    cases found : messages.get? id with
    | none => rw [aboveOf, found]; rfl
    | some message =>
      simp only [found] at walked
      obtain ⟨_, _, whole⟩ := Option.map_eq_some_iff.mp walked
      cases whole

theorem upwards_of_missing {fuel : Nat} {id : String} {list : List Fields}
    (missing : aboveOf messages id = none)
    (walked : Utils.messagesUpwards linkParent messages fuel (some id) = some list) : list = [] := by
  cases fuel with
  | zero => cases walked
  | succ fuel =>
    rw [Utils.messagesUpwards, Option.map_eq_none_iff.mp missing] at walked
    exact (Option.some.inj walked).symm

theorem ends_of_walk (named : Named messages) (linked : Linked messages) {fuel : Nat} {id : String}
    {list : List Fields} (walked : Utils.messagesUpwards linkParent messages fuel (some id) = some list)
    {visited : List Json} (fresh : ∀ message ∈ list, getField message "id" ∉ visited) :
    ∃ sent, Utils.walkParents (messages.mapValue (fun _ message => Json.obj message)) fuel
        (((messages.get? id).map Json.obj).getD .null) visited = .ok sent ∧
      (sent.length = list.length → Ends (aboveOf messages) id) ∧
      (Ends (aboveOf messages) id → sent = list) := by
  induction fuel generalizing id list visited with
  | zero => cases walked
  | succ fuel ih =>
    have whole := walked
    rw [Utils.messagesUpwards] at walked
    cases found : messages.get? id with
    | none =>
      obtain rfl : [] = list := by simpa [found] using walked
      exact ⟨[], rfl, fun _ => .missing (by rw [aboveOf, found]; rfl), fun _ => rfl⟩
    | some message =>
      simp only [found] at walked
      obtain ⟨above, walked_above, rfl⟩ := Option.map_eq_some_iff.mp walked
      have id_field : getField message "id" = .str id := by rw [getField_eq, named id message found]; rfl
      have filled : (Json.obj message).truthy = true := by
        cases message with
        | nil => cases id_field
        | cons _ _ => rfl
      have unseen : Json.str id ∉ visited := id_field ▸ fresh message List.mem_cons_self
      have step : ∀ rest, (Utils.parentMessage (messages.mapValue (fun _ message => Json.obj message))
          (getField message "parentId")).bind (fun parent => Utils.walkParents
            (messages.mapValue (fun _ message => Json.obj message)) fuel parent (.str id :: visited)) =
              .ok rest →
          Utils.walkParents (messages.mapValue (fun _ message => Json.obj message)) (fuel + 1)
            (.obj message) visited = .ok (message :: rest) := by
        intro rest walks
        obtain ⟨parent, read, walks⟩ := bind_eq_ok.mp walks
        simp only [Utils.walkParents, filled, if_true, id_field, Json.hashable, if_neg unseen, read, bind,
          Except.bind]
        simp [walks]
      have alone : (Utils.parentMessage (messages.mapValue (fun _ message => Json.obj message))
          (getField message "parentId")) = .ok .null →
          Utils.walkParents (messages.mapValue (fun _ message => Json.obj message)) (fuel + 1)
            (.obj message) visited = .ok [message] := by
        intro read
        refine step [] ?_
        rw [read]
        cases fuel <;> rfl
      rcases linked id message found with no_parent | ⟨parent, given⟩
      · have above_none : linkParent message = none := by rw [linkParent, no_parent]; rfl
        rw [above_none] at walked_above
        obtain rfl : [] = above := by
          cases fuel <;> exact Option.some.inj walked_above
        refine ⟨[message], alone (by rw [no_parent]; rfl), fun _ => .root ?_, fun _ => rfl⟩
        rw [aboveOf, found, Option.map_some, above_none]
      · have above_some : linkParent message = some parent := by rw [linkParent, given]; rfl
        have above_id : aboveOf messages id = some (some parent) := by
          rw [aboveOf, found, Option.map_some, above_some]
        rw [above_some] at walked_above
        by_cases empty : parent = ""
        · subst empty
          refine ⟨[message], alone (by rw [given]; rfl), fun same => ?_, fun ends => ?_⟩
          · cases above with
            | cons _ _ => cases same
            | nil =>
              have missing := upwards_nil walked_above
              exact .under above_id (fun _ => missing) (.missing missing)
          · have missing : aboveOf messages "" = none := by
              cases ends with
              | missing missing => cases missing.symm.trans above_id
              | root root => cases root.symm.trans above_id
              | under named told _ =>
                cases named.symm.trans above_id
                exact told rfl
            rw [upwards_of_missing missing walked_above]
        · have read : Utils.parentMessage (messages.mapValue (fun _ message => Json.obj message))
              (getField message "parentId") = .ok (((messages.get? parent).map Json.obj).getD .null) := by
            have truthy : (Json.str parent).truthy = true := decide_eq_true empty
            rw [given, Utils.parentMessage, if_pos truthy, Dict.getJson?_str, Dict.get?_mapValue]
            rfl
          have fresh_above : ∀ other ∈ above, getField other "id" ∉ Json.str id :: visited := by
            intro other member seen
            rcases List.mem_cons.mp seen with same | before
            · exact not_again named whole walked_above member same
            · exact fresh other (List.mem_cons_of_mem _ member) before
          obtain ⟨sent, walks, long, all⟩ := ih walked_above fresh_above
          refine ⟨message :: sent, step sent (by rw [read]; exact walks), fun same => ?_, fun ends => ?_⟩
          · exact .under above_id (fun same => absurd same empty) (long (Nat.succ.inj same))
          · have ends_above : Ends (aboveOf messages) parent := by
              cases ends with
              | missing missing => cases missing.symm.trans above_id
              | root root => cases root.symm.trans above_id
              | under named _ ends =>
                cases named.symm.trans above_id
                exact ends
            rw [all ends_above]

theorem exists_walk {id : String} (ends : Ends (aboveOf messages) id) :
    ∃ fuel list, Utils.messagesUpwards linkParent messages fuel (some id) = some list := by
  induction ends with
  | @missing id missing =>
    have absent : messages.get? id = none := Option.map_eq_none_iff.mp missing
    exact ⟨1, [], by rw [Utils.messagesUpwards, absent]⟩
  | @root id root =>
    obtain ⟨message, found, no_parent⟩ := Option.map_eq_some_iff.mp root
    exact ⟨1, [message], by rw [Utils.messagesUpwards, found]; simp [no_parent, Utils.messagesUpwards]⟩
  | @under id parent above _ _ ih =>
    obtain ⟨message, found, linked⟩ := Option.map_eq_some_iff.mp above
    obtain ⟨fuel, list, walked⟩ := ih
    exact ⟨fuel + 1, message :: list, by rw [Utils.messagesUpwards, found]; simp [linked, walked]⟩

end

/-- A message whose links, where they are given, are ids, and whose time is a number. -/
structure TypedMessage (message : Fields) : Prop where
  parent : message.lookup "parentId" = none ∨ message.lookup "parentId" = some .null ∨
    ∃ parent, message.lookup "parentId" = some (.str parent)
  children : ∀ items, childItems message = some items → ∀ item ∈ items, ∃ child, item = .str child
  time : message.lookup "timestamp" = none ∨ message.lookup "timestamp" = some .null ∨
    ∃ time, message.lookup "timestamp" = some (.num time)

/-- The entries are typed messages or no objects. An array would be an object without the fields. -/
def TypedHistory (history : History) : Prop :=
  ∀ messages, history.messages = some messages → ∀ id value, messages.get? id = some value →
    (∀ items, value ≠ .arr items) ∧ ∀ message, value = .obj message → TypedMessage message

/-- A current message is missing only if there is none, the walk up from it ends at messages that are
sound, the backend walks through the same ones, and the history is as the repair leaves it. -/
structure Safe (history : History) : Prop where
  current : (∀ id, history.currentId ≠ .id id) → ∀ messages, history.messages = some messages →
    messages.keys = []
  shown : ∃ enough list, ∀ fuel ≥ enough, shownMessages fuel history = .ok list ∧
    (sentMessages fuel history).map (List.map (getField · "id")) = .ok (list.map (getField · "id")) ∧
    ∀ message ∈ list, ∃ messages id, history.messages = some messages ∧
      messages.get? id = some (.obj message) ∧ CleanMessage (usable messages) id message
  again : sanitizeHistory history = history

def parentsOf (messages : Messages) (id : String) : Option (Option String) :=
  (messages.get? id).map (fun message => (parentValue messages id message).str?)

def existing (messages : Messages) (message : Fields) : List String :=
  (linkChildren message).filter (fun child => decide (child ∈ messages.keys))

/-- What a stored history has to be for that. -/
structure Sane (history : History) : Prop where
  given : history.messages = none → ∀ id, history.currentId ≠ .id id
  named : ∀ messages, history.messages = some messages → (∀ id, history.currentId ≠ .id id) →
    ¬ Stays (usable messages) history.currentId
  ends : ∀ messages, history.messages = some messages → ∀ id,
    Opens linkChildren (usable messages) history.currentId id → Ends (parentsOf (usable messages)) id
  empty : ∀ messages, history.messages = some messages →
    Opens linkChildren (usable messages) history.currentId "" →
      Opens (existing (usable messages)) (usable messages) (.id "") ""

section

variable {messages : Dict String Json}

theorem linked_sanitizeMessages
    (typed : ∀ id message, (usable messages).get? id = some message → TypedMessage message) :
    Linked (sanitizeMessages messages) := by
  intro id new found
  obtain ⟨old, found_old, repair⟩ := repair_of_sanitized found
  rw [getField_eq, repair.parent, Option.getD_some, parentValue]
  rcases (typed id old found_old).parent with absent | null | ⟨parent, given⟩
  · rw [absent, Option.getD_none]
    cases lister (usable messages) id with
    | none => exact Or.inl rfl
    | some parent => exact Or.inr ⟨parent, rfl⟩
  · exact Or.inl (by rw [null]; rfl)
  · exact Or.inr ⟨parent, by rw [given]; rfl⟩

theorem named_sanitizeMessages : Named (sanitizeMessages messages) :=
  fun id message found => (clean_sanitizeMessages messages id message found).named

theorem named_canonical : Named ((usable messages).mapValue canonical) := by
  intro id message found
  rw [Dict.get?_mapValue] at found
  obtain ⟨old, _, rfl⟩ := Option.map_eq_some_iff.mp found
  exact lookup_canonical_id id old

theorem aboveOf_sanitizeMessages : aboveOf (sanitizeMessages messages) = parentsOf (usable messages) := by
  funext id
  rw [aboveOf, parentsOf]
  cases found : (usable messages).get? id with
  | none =>
    have absent : (sanitizeMessages messages).get? id = none := by
      rw [Dict.get?_eq_none, keys_sanitizeMessages]
      exact Dict.get?_eq_none.mp found
    rw [absent]
    rfl
  | some old =>
    obtain ⟨new, found_new, repair⟩ := repaired found
    rw [found_new, Option.map_some, Option.map_some, linkParent, getField_eq, repair.parent]
    rfl

theorem opens_congr {children children_too : Fields → List String} {first second : Messages}
    {currentId : Id} {id : String} (stays : Stays first currentId ↔ Stays second currentId)
    (keys : first.keys = second.keys)
    (same : ∀ key one, first.get? key = some one → ∃ other, second.get? key = some other ∧
      children one = children_too other ∧ timestamp one = timestamp other) :
    Opens children first currentId id ↔ Opens children_too second currentId id := by
  have leaves_same : leaves children first = leaves children_too second := by
    have mapped : first.mapValue (fun _ message =>
          if children message = [] then some (timestamp message) else none) =
        second.mapValue (fun _ message =>
          if children_too message = [] then some (timestamp message) else none) := by
      refine Dict.ext_of_keys (by rw [Dict.keys_mapValue, Dict.keys_mapValue, keys]) (fun key => ?_)
      rw [Dict.get?_mapValue, Dict.get?_mapValue]
      cases found : first.get? key with
      | none =>
        have absent : second.get? key = none := by
          rw [Dict.get?_eq_none, ← keys]
          exact Dict.get?_eq_none.mp found
        rw [absent]
        rfl
      | some one =>
        obtain ⟨other, found_other, below, time⟩ := same key one found
        rw [found_other, Option.map_some, Option.map_some, below, time]
    exact congrArg Dict.entries mapped
  constructor
  · intro opens
    cases opens with
    | stays current there => exact .stays current (stays.mp there)
    | latest lost latest => exact .latest (mt stays.mpr lost) (leaves_same ▸ latest)
    | first lost early first => exact .first (mt stays.mpr lost) (leaves_same ▸ early) (keys ▸ first)
  · intro opens
    cases opens with
    | stays current there => exact .stays current (stays.mpr there)
    | latest lost latest => exact .latest (mt stays.mp lost) (leaves_same ▸ latest)
    | first lost early first => exact .first (mt stays.mp lost) (leaves_same ▸ early) (keys ▸ first)

theorem stays_canonical {currentId : Id} :
    Stays ((usable messages).mapValue canonical) currentId ↔ Stays (usable messages) currentId := by
  refine and_congr_right (fun _ => ?_)
  rw [Dict.get?_mapValue]
  cases (usable messages).get? currentId.key with
  | none => simp
  | some old => simp [getField_eq, lookup_canonical]

theorem opens_canonical {currentId : Id} {id : String} :
    currentIdOf ((usable messages).mapValue canonical) currentId = .id id ↔
      Opens linkChildren (usable messages) currentId id := by
  rw [opens_iff named_canonical]
  refine opens_congr stays_canonical (Dict.keys_mapValue _ _) (fun key one found => ?_)
  rw [Dict.get?_mapValue] at found
  obtain ⟨old, found_old, rfl⟩ := Option.map_eq_some_iff.mp found
  refine ⟨old, found_old, linkChildren_canonical key old, ?_⟩
  rw [timestamp, timestamp, lookup_canonical (by decide) (by decide)]

theorem filterMap_filter (items : List Json) (keep : String → Bool) :
    (items.filter (fun item => item.str?.any keep)).filterMap Json.str? =
      (items.filterMap Json.str?).filter keep := by
  induction items with
  | nil => rfl
  | cons item rest ih =>
    cases text : item.str? with
    | none => simp [text, ih]
    | some value =>
      by_cases kept : keep value = true
      · simp [text, kept, ih]
      · simp [text, kept, ih]

theorem linkChildren_repaired {id : String} {old new : Fields}
    (repair : Repaired (usable messages) id old new) :
    linkChildren new = existing (usable messages) old := by
  rw [existing, linkChildren_eq old, ← filterMap_filter]
  unfold linkChildren
  rw [repair.children]

theorem opens_again :
    currentIdOf (sanitizeMessages messages) (.id "") = .id "" ↔
      Opens (existing (usable messages)) (usable messages) (.id "") "" := by
  rw [opens_iff named_sanitizeMessages]
  have empty_lost (given : Messages) : ¬ Stays given (.id "") := fun stays => stays.1 rfl
  refine opens_congr (iff_of_false (empty_lost _) (empty_lost _)) (keys_sanitizeMessages messages)
    (fun key new found => ?_)
  obtain ⟨old, found_old, repair⟩ := repair_of_sanitized found
  exact ⟨old, found_old, linkChildren_repaired repair, repair.time⟩

theorem mem_of_opens {children : Fields → List String} {given : Messages} {currentId : Id} {id : String}
    (opens : Opens children given currentId id) : id ∈ given.keys := by
  cases opens with
  | stays current stays =>
    obtain ⟨_, message, found, _⟩ := stays
    rw [current] at found
    exact Dict.mem_keys_of_get? found
  | @latest _ time latest =>
    obtain ⟨before, after, split, _⟩ := latest.split
    have listed : (id, some time) ∈ leaves children given := by rw [split]; simp
    obtain ⟨entry, member, same⟩ := List.mem_map.mp listed
    have same_id : entry.1 = id := congrArg Prod.fst same
    exact same_id ▸ List.mem_map_of_mem member
  | first _ _ first => exact List.mem_of_mem_head? first

theorem stays_sanitizeMessages {currentId : Id} (filled : currentId.key ≠ "")
    (listed : currentId.key ∈ (usable messages).keys) : Stays (sanitizeMessages messages) currentId := by
  rw [← keys_sanitizeMessages] at listed
  obtain ⟨message, found⟩ := Dict.exists_of_mem_keys listed
  exact ⟨filled, message, found, (clean_sanitizeMessages messages _ message found).role⟩

theorem recoveredId_null {given : Messages} (lost : ∀ id, recoveredId given ≠ .id id) :
    given.keys = [] ∧ recoveredId given = .null := by
  unfold recoveredId at lost ⊢
  cases found : ((given.entries.foldl later (none, -1)).1).or given.keys.head? with
  | some id => exact absurd rfl (found ▸ lost id)
  | none => exact ⟨List.head?_eq_none_iff.mp (Option.or_eq_none_iff.mp found).2, rfl⟩

theorem recoveredId_empty {given : Messages} (none_given : given.keys = []) : recoveredId given = .null := by
  have entries : given.entries = [] := List.map_eq_nil_iff.mp none_given
  rw [recoveredId, entries, none_given]
  rfl

theorem again_lost {currentId : Id}
    (lost : ∀ id, currentIdOf ((usable messages).mapValue canonical) currentId ≠ .id id) :
    currentIdOf (sanitizeMessages messages) (currentIdOf ((usable messages).mapValue canonical) currentId) =
      currentIdOf ((usable messages).mapValue canonical) currentId := by
  by_cases stays : Stays ((usable messages).mapValue canonical) currentId
  · rw [currentIdOf_stays named_canonical stays]
    obtain ⟨filled, message, found, _⟩ := stays
    have listed := Dict.mem_keys_of_get? found
    rw [Dict.keys_mapValue] at listed
    exact currentIdOf_stays named_sanitizeMessages (stays_sanitizeMessages filled listed)
  · rw [currentIdOf_lost named_canonical stays] at lost ⊢
    obtain ⟨no_keys, null⟩ := recoveredId_null lost
    rw [Dict.keys_mapValue, ← keys_sanitizeMessages] at no_keys
    have nothing_stays : ¬ Stays (sanitizeMessages messages) .null := by
      rintro ⟨_, message, found, _⟩
      have listed := Dict.mem_keys_of_get? found
      rw [no_keys] at listed
      exact nomatch listed
    rw [null, currentIdOf_lost named_sanitizeMessages nothing_stays, recoveredId_empty no_keys]

theorem again_iff {currentId : Id} :
    currentIdOf (sanitizeMessages messages) (currentIdOf ((usable messages).mapValue canonical) currentId) =
        currentIdOf ((usable messages).mapValue canonical) currentId ↔
      (Opens linkChildren (usable messages) currentId "" →
        Opens (existing (usable messages)) (usable messages) (.id "") "") := by
  by_cases some_id : ∃ id, currentIdOf ((usable messages).mapValue canonical) currentId = .id id
  · obtain ⟨id, left⟩ := some_id
    have opens := opens_canonical.mp left
    rw [left]
    by_cases empty : id = ""
    · subst empty
      rw [opens_again]
      exact ⟨fun again _ => again, fun implied => implied opens⟩
    · have stays : Stays (sanitizeMessages messages) (.id id) :=
        stays_sanitizeMessages empty (mem_of_opens opens)
      refine iff_of_true (currentIdOf_stays named_sanitizeMessages stays) (fun opens_empty => ?_)
      have same := left.symm.trans (opens_canonical.mpr opens_empty)
      exact absurd (Id.id.inj same) empty
  · have lost : ∀ id, currentIdOf ((usable messages).mapValue canonical) currentId ≠ .id id :=
      fun id same => some_id ⟨id, same⟩
    exact iff_of_true (again_lost lost) (fun opens => absurd (opens_canonical.mpr opens) (lost ""))

def opened (messages : Dict String Json) (id : String) : History :=
  ⟨some ((sanitizeMessages messages).mapValue (fun _ message => .obj message)), .id id⟩

theorem shownMessages_eq_ok {fuel : Nat} {id : String} {list : List Fields} :
    shownMessages fuel (opened messages id) = .ok list ↔
      ∃ above, Utils.messagesUpwards linkParent (sanitizeMessages messages) fuel (some id) = some above ∧
        above.reverse = list := by
  simp only [shownMessages, opened, usable_objects, Utils.createMessagesList]
  cases Utils.messagesUpwards linkParent (sanitizeMessages messages) fuel (some id) with
  | none => simp
  | some above => simp

theorem shown_iff (typed : ∀ id message, (usable messages).get? id = some message → TypedMessage message)
    (id : String) :
    (∃ enough list, ∀ fuel ≥ enough, shownMessages fuel (opened messages id) = .ok list ∧
      (sentMessages fuel (opened messages id)).map (List.map (getField · "id")) =
        .ok (list.map (getField · "id")) ∧
      ∀ message ∈ list, ∃ given key, (opened messages id).messages = some given ∧
        given.get? key = some (.obj message) ∧ CleanMessage (usable given) key message) ↔
      Ends (parentsOf (usable messages)) id := by
  rw [← aboveOf_sanitizeMessages]
  have linked := linked_sanitizeMessages typed
  constructor
  · rintro ⟨enough, list, all⟩
    obtain ⟨shown, sent_ids, _⟩ := all enough (le_refl enough)
    obtain ⟨above, walked, rfl⟩ := shownMessages_eq_ok.mp shown
    obtain ⟨sent, walks, long, _⟩ :=
      ends_of_walk named_sanitizeMessages linked walked (fun _ _ => List.not_mem_nil)
    refine long ?_
    have read : sentMessages enough (opened messages id) = .ok sent.reverse := by
      simp only [sentMessages, opened, Utils.get_message_list, Dict.get?_mapValue, walks]
      rfl
    rw [read] at sent_ids
    have lengths := congrArg List.length (Except.ok.inj sent_ids)
    simpa using lengths
  · intro ends
    obtain ⟨enough, above, walked⟩ := exists_walk ends
    refine ⟨enough, above.reverse, fun fuel large => ⟨?_, ?_, ?_⟩⟩
    · exact shownMessages_eq_ok.mpr ⟨above, Utils.messagesUpwards_mono large walked, rfl⟩
    · obtain ⟨sent, walks, _, all⟩ := ends_of_walk named_sanitizeMessages linked
        (Utils.messagesUpwards_mono large walked) (fun _ _ => List.not_mem_nil)
      rw [all ends] at walks
      simp only [sentMessages, opened, Utils.get_message_list, Dict.get?_mapValue, walks]
      rfl
    · intro message member
      obtain ⟨key, _, _, stored, _⟩ := mem_upwards walked (List.mem_reverse.mp member)
      refine ⟨_, key, rfl, by rw [Dict.get?_mapValue, stored]; rfl, ?_⟩
      rw [usable_objects]
      exact clean_sanitizeMessages messages key message stored

theorem current_iff {currentId : Id} :
    ((∀ id, currentIdOf ((usable messages).mapValue canonical) currentId ≠ .id id) →
        (usable messages).keys = []) ↔
      ((∀ id, currentId ≠ .id id) → ¬ Stays (usable messages) currentId) := by
  constructor
  · intro current no_id stays
    have same := currentIdOf_stays named_canonical (stays_canonical.mpr stays)
    rw [same] at current
    obtain ⟨_, message, found, _⟩ := stays
    have listed := Dict.mem_keys_of_get? found
    rw [current no_id] at listed
    exact nomatch listed
  · intro named lost
    by_cases stays : Stays ((usable messages).mapValue canonical) currentId
    · rw [currentIdOf_stays named_canonical stays] at lost
      exact absurd (stays_canonical.mp stays) (named lost)
    · rw [currentIdOf_lost named_canonical stays] at lost
      rw [← Dict.keys_mapValue (usable messages) canonical]
      exact (recoveredId_null lost).1

theorem sanitizeHistory_again (currentId : Id) :
    sanitizeHistory ⟨some ((sanitizeMessages messages).mapValue (fun _ message => .obj message)), currentId⟩ =
      ⟨some ((sanitizeMessages messages).mapValue (fun _ message => .obj message)),
        currentIdOf (sanitizeMessages messages) currentId⟩ := by
  have clean := clean_sanitizeMessages messages
  simp only [sanitizeHistory, sanitizeMessages_clean clean, usable_objects,
    mapValue_clean (fun id message found => canonical_clean (clean id message found))]

/-- A stored chat is shown as it is sent, and stays as it is repaired, exactly when its history is sane. -/
theorem sanitized_safe_iff (history : History) (typed : TypedHistory history) :
    Safe (sanitizeHistory history) ↔ Sane history := by
  obtain ⟨_ | messages, currentId⟩ := history
  · constructor
    · intro safe
      refine ⟨fun _ id current => ?_, nofun, nofun, nofun⟩
      obtain ⟨enough, list, all⟩ := safe.shown
      have shown := (all enough (le_refl enough)).1
      have stays : (⟨none, currentId⟩ : History).currentId = .id id := current
      simp only [sanitizeHistory] at shown
      rw [shownMessages, stays] at shown
      exact nomatch shown
    · intro sane
      have no_id := sane.given rfl
      refine ⟨(fun _ _ given => nomatch given), ⟨0, [], fun fuel _ => ?_⟩, rfl⟩
      cases currentId with
      | id id => exact absurd rfl (no_id id)
      | undefined => exact ⟨rfl, rfl, (fun _ member => nomatch member)⟩
      | null => exact ⟨rfl, rfl, (fun _ member => nomatch member)⟩
  · have object_typed : ∀ id message, (usable messages).get? id = some message → TypedMessage message := by
      intro id message found
      rw [usable, Dict.get?_filterMapValue] at found
      obtain ⟨value, stored, object⟩ := Option.bind_eq_some_iff.mp found
      exact (typed messages rfl id value stored).2 message (Json.obj?_eq_some.mp object)
    have repaired_keys : ((sanitizeMessages messages).mapValue (fun _ message => Json.obj message)).keys =
        (usable messages).keys := by
      rw [Dict.keys_mapValue, keys_sanitizeMessages]
    have sanitized : sanitizeHistory ⟨some messages, currentId⟩ =
        ⟨some ((sanitizeMessages messages).mapValue (fun _ message => .obj message)),
          currentIdOf ((usable messages).mapValue canonical) currentId⟩ := rfl
    constructor
    · intro safe
      refine ⟨nofun, ?_, ?_, ?_⟩
      · rintro _ ⟨⟩
        refine current_iff.mp (fun lost => ?_)
        rw [← repaired_keys]
        exact safe.current lost _ rfl
      · rintro _ ⟨⟩ id opens
        have shown := safe.shown
        have current := opens_canonical.mpr opens
        simp only [sanitizeHistory, current] at shown
        exact (shown_iff object_typed id).mp shown
      · rintro _ ⟨⟩
        refine again_iff.mp ?_
        have again := safe.again
        rw [sanitized, sanitizeHistory_again] at again
        exact congrArg History.currentId again
    · intro sane
      rw [sanitized]
      refine ⟨?_, ?_, ?_⟩
      · rintro lost _ ⟨⟩
        rw [repaired_keys]
        exact current_iff.mpr (sane.named messages rfl) lost
      · cases current : currentIdOf ((usable messages).mapValue canonical) currentId with
        | id id =>
          exact (shown_iff object_typed id).mpr (sane.ends messages rfl id (opens_canonical.mp current))
        | undefined => exact ⟨0, [], fun _ _ => ⟨rfl, rfl, (fun _ member => nomatch member)⟩⟩
        | null => exact ⟨0, [], fun _ _ => ⟨rfl, rfl, (fun _ member => nomatch member)⟩⟩
      · rw [sanitizeHistory_again, again_iff.mpr (sane.empty messages rfl)]

end

def lone : Dict String Json := Dict.ofEntries [("a", .obj [("content", .str "Hello"), ("timestamp", .num 5)])]

theorem lone_safe : Safe (sanitizeHistory ⟨some lone, .null⟩) := by
  have typed : TypedHistory ⟨some lone, .null⟩ := by
    rintro _ ⟨⟩ id value found
    have listed := Dict.mem_entries_iff.mpr found
    obtain ⟨rfl, rfl⟩ : id = "a" ∧ value = .obj [("content", .str "Hello"), ("timestamp", .num 5)] := by
      simpa [lone] using List.mem_singleton.mp listed
    refine ⟨nofun, ?_⟩
    rintro _ ⟨⟩
    exact ⟨Or.inl rfl, nofun, Or.inr (Or.inr ⟨5, rfl⟩)⟩
  refine (sanitized_safe_iff _ typed).mpr ⟨nofun, ?_, ?_, ?_⟩
  · rintro _ ⟨⟩ _ ⟨_, message, found, _⟩
    exact nomatch found
  · rintro _ ⟨⟩ id opens
    obtain rfl : id = "a" := List.mem_singleton.mp (mem_of_opens opens)
    exact .root (by decide +kernel)
  · rintro _ ⟨⟩ opens
    exact absurd (mem_of_opens opens) (by decide +kernel)

def circular : Dict String Json :=
  Dict.ofEntries [("a", .obj [("role", .str "user"), ("parentId", .str "b")]),
    ("b", .obj [("role", .str "assistant"), ("parentId", .str "a")])]

/-- The walk up from a message of a circle never ends. -/
theorem circular_diverges :
    ¬ Safe (sanitizeHistory ⟨some circular, .id "a"⟩) ∧
      (sentMessages 3 (sanitizeHistory ⟨some circular, .id "a"⟩)).map List.length = .ok 2 := by
  refine ⟨fun safe => ?_, by decide +kernel⟩
  have above_a : aboveOf (sanitizeMessages circular) "a" = some (some "b") := by decide +kernel
  have above_b : aboveOf (sanitizeMessages circular) "b" = some (some "a") := by decide +kernel
  have never : ∀ fuel id, id = "a" ∨ id = "b" →
      Utils.messagesUpwards linkParent (sanitizeMessages circular) fuel (some id) = none := by
    intro fuel
    induction fuel with
    | zero => exact fun _ _ => rfl
    | succ fuel ih =>
      rintro id (rfl | rfl)
      · obtain ⟨message, found, parent⟩ := Option.map_eq_some_iff.mp above_a
        rw [Utils.messagesUpwards, found]
        simp [parent, ih "b" (Or.inr rfl)]
      · obtain ⟨message, found, parent⟩ := Option.map_eq_some_iff.mp above_b
        rw [Utils.messagesUpwards, found]
        simp [parent, ih "a" (Or.inl rfl)]
  have current : sanitizeHistory ⟨some circular, .id "a"⟩ = opened circular "a" := by
    have stays : currentIdOf ((usable circular).mapValue canonical) (.id "a") = .id "a" := by
      decide +kernel
    simp only [sanitizeHistory, opened, stays]
  obtain ⟨enough, list, all⟩ := safe.shown
  have shown := (all enough (le_refl enough)).1
  rw [current, shownMessages_eq_ok] at shown
  obtain ⟨above, walked, _⟩ := shown
  cases (never enough "a" (Or.inl rfl)).symm.trans walked

end OpenWebui.Sanitized
