import OpenWebui.Chats.MessagesMap

/-! `Chats.merge_history`: the stored history and one sent by a client become one
map, whose child lists are rebuilt from the parent links. -/

namespace OpenWebui.Chats

abbrev RawHistory := HistoryOf Json

/-- `history or {}`. -/
def orEmpty (history : Option RawHistory) : RawHistory := history.getD ⟨.null, .null, Dict.empty⟩

def History.raw (history : History) : RawHistory :=
  { history with messages := .obj ((history.messages.mapValue (fun _ message => Json.obj message)).entries) }

/-- `messages or {}`, unpacked into a dictionary. -/
def messageEntries (messages : Json) : Except PyError (Dict String Json) :=
  match messages with
  | .obj fields => .ok (Dict.ofEntries fields)
  | other => if other.truthy then .error .typeError else .ok Dict.empty

def clearChildren (messages : Messages) : Messages :=
  messages.mapValue (fun _ message => Assoc.set message "childrenIds" (.arr []))

/-- `message['childrenIds'].append(child)`. -/
def appendChild (child : String) (message : Fields) : Fields :=
  match getField message "childrenIds" with
  | .arr items => Assoc.set message "childrenIds" (.arr (items ++ [.str child]))
  | _ => message

def adoptChild (current : Messages) (entry : String × Fields) : Except PyError Messages := do
  let parent_id := getField entry.2 "parentId"
  let found ← current.hasJson parent_id
  match parent_id with
  | .str id => .ok (if found then current.modify id (appendChild entry.1) else current)
  | _ => .ok current

def rebuildChildren (messages : Messages) : Except PyError Messages :=
  messages.entries.foldlM adoptChild (clearChildren messages)

def mergeCurrentId (merged : Messages) (incoming existing : Json) : Except PyError Json := do
  if ← merged.hasJson incoming then .ok incoming
  else if ← merged.hasJson existing then .ok existing
  else .ok .null

/-- The messages that survive the filter: an incoming entry hides the stored one
even when it is not an object itself. -/
def keptMessages (existing incoming : Dict String Json) : Messages :=
  (existing.merge incoming).filterMapValue Json.obj?

def merge_history (existing_history incoming_history : Option RawHistory) :
    Except PyError History := do
  let existing ← messageEntries (orEmpty existing_history).messages
  let incoming ← messageEntries (orEmpty incoming_history).messages
  let merged ← rebuildChildren (keptMessages existing incoming)
  let current_id ← mergeCurrentId merged (orEmpty incoming_history).currentId
    (orEmpty existing_history).currentId
  .ok {
    messages := merged
    currentId := current_id
    fields := (orEmpty existing_history).fields.merge (orEmpty incoming_history).fields }

theorem hasJson_hashable {messages : Messages} {key : Json} (hashable : key.hashable = true) :
    messages.hasJson key = .ok (key.str?.any (fun id => decide (id ∈ messages.keys))) := by
  cases key with
  | str id =>
    rw [Dict.hasJson_str]
    congr 1
    cases found : messages.get? id with
    | none => simp [Json.str?, Dict.get?_eq_none.mp found]
    | some message => simp [Json.str?, Dict.mem_keys_of_get? found]
  | arr _ => simp [Json.hashable] at hashable
  | obj _ => simp [Json.hashable] at hashable
  | _ => rfl

theorem hasJson_unhashable {messages : Messages} {key : Json} (unhashable : key.hashable = false) :
    messages.hasJson key = .error .typeError := by
  cases key with
  | arr _ => rfl
  | obj _ => rfl
  | _ => simp [Json.hashable] at unhashable

def withChildren (messages : Messages) (ids : List String) : Messages :=
  messages.mapValue (fun id message => Assoc.set message "childrenIds" (.arr
    ((ids.filter (fun child => (links messages).parent child == some id)).map Json.str)))

theorem withChildren_nil (messages : Messages) :
    withChildren messages [] = clearChildren messages := rfl

theorem adoptChild_withChildren {messages : Messages} (done : List String) {id : String}
    {message : Fields} (found : messages.get? id = some message)
    (hashable : (getField message "parentId").hashable = true) :
    adoptChild (withChildren messages done) (id, message) =
      .ok (withChildren messages (done ++ [id])) := by
  have parentEq := links_parent found
  simp only [adoptChild, hasJson_hashable hashable, bind, Except.bind]
  cases stored : getField message "parentId" with
  | str parent =>
    have named : (links messages).parent id = some parent := by
      rw [parentEq, linkParent_eq_some]
      exact stored
    by_cases present : parent ∈ messages.keys
    · simp only [Json.str?, Option.any_some, withChildren, Dict.keys_mapValue, present,
        decide_true, ↓reduceIte, Except.ok.injEq]
      apply Dict.ext_of_keys (by simp)
      intro query
      rw [Dict.get?_modify, Dict.get?_mapValue, Dict.get?_mapValue]
      cases messages.get? query with
      | none => simp
      | some other =>
        by_cases same : parent = query
        · subst same
          simp [appendChild, List.filter_append, named]
        · simp [same, List.filter_append, named]
    · simp only [Json.str?, Option.any_some, withChildren, Dict.keys_mapValue, present,
        decide_false, Bool.false_eq_true, ↓reduceIte, Except.ok.injEq]
      apply Dict.ext_of_keys (by simp)
      intro query
      rw [Dict.get?_mapValue, Dict.get?_mapValue]
      cases other : messages.get? query with
      | none => simp
      | some old =>
        have different : parent ≠ query := by
          intro same
          exact present (same ▸ Dict.mem_keys_of_get? other)
        simp [List.filter_append, named, different]
  | arr _ => simp [stored, Json.hashable] at hashable
  | obj _ => simp [stored, Json.hashable] at hashable
  | _ =>
    have none : (links messages).parent id = none := by
      rw [parentEq, linkParent, stored]
      rfl
    simp [withChildren, List.filter_append, none]

theorem rebuildChildren_from {messages : Messages}
    (hashable : ∀ id message, messages.get? id = some message →
      (getField message "parentId").hashable = true) (entries : List (String × Fields))
    (inside : ∀ entry ∈ entries, messages.get? entry.1 = some entry.2) (done : List String) :
    entries.foldlM adoptChild (withChildren messages done) =
      .ok (withChildren messages (done ++ entries.map Prod.fst)) := by
  induction entries generalizing done with
  | nil => simp [pure, Except.pure]
  | cons entry rest ih =>
    have found := inside entry (by simp)
    rw [List.foldlM_cons, adoptChild_withChildren done found (hashable _ _ found)]
    simpa [bind, Except.bind] using
      ih (fun other member => inside other (by simp [member])) (done ++ [entry.1])

theorem rebuildChildren_eq {messages : Messages}
    (hashable : ∀ id message, messages.get? id = some message →
      (getField message "parentId").hashable = true) :
    rebuildChildren messages = .ok (withChildren messages messages.keys) := by
  have inside : ∀ entry ∈ messages.entries, messages.get? entry.1 = some entry.2 :=
    fun entry member => Dict.mem_entries_iff.mp member
  simpa [rebuildChildren, ← withChildren_nil, Dict.keys, Assoc.keys] using
    rebuildChildren_from hashable messages.entries inside []

private theorem adopt_unhashable {entries : List (String × Fields)} {id : String}
    {message : Fields} (member : (id, message) ∈ entries)
    (unhashable : (getField message "parentId").hashable = false) (current : Messages) :
    ∃ error, entries.foldlM adoptChild current = .error error := by
  induction entries generalizing current with
  | nil => simp at member
  | cons entry rest ih =>
    rw [List.foldlM_cons]
    cases round : adoptChild current entry with
    | error error => exact ⟨error, rfl⟩
    | ok next =>
      rcases List.mem_cons.mp member with same | later
      · subst same
        simp [adoptChild, hasJson_unhashable unhashable, bind, Except.bind] at round
      · exact ih later next

theorem hashable_of_rebuildChildren {messages merged : Messages}
    (rebuilt : rebuildChildren messages = .ok merged) {id : String} {message : Fields}
    (found : messages.get? id = some message) :
    (getField message "parentId").hashable = true := by
  cases seen : (getField message "parentId").hashable with
  | true => rfl
  | false =>
    obtain ⟨error, failed⟩ :=
      adopt_unhashable (Dict.mem_entries_iff.mpr found) seen (clearChildren messages)
    rw [rebuildChildren, failed] at rebuilt
    cases rebuilt

def readMessages (messages : Json) : Dict String Json :=
  match messages with
  | .obj fields => Dict.ofEntries fields
  | _ => Dict.empty

/-- A message part that can be unpacked: an object, or a false value. -/
def Unpackable (messages : Json) : Prop := messages.obj?.isSome = true ∨ messages.truthy = false

theorem messageEntries_eq_ok {messages : Json} {entries : Dict String Json} :
    messageEntries messages = .ok entries ↔
      Unpackable messages ∧ entries = readMessages messages := by
  cases messages with
  | obj fields =>
    exact ⟨fun same => ⟨.inl rfl, (Except.ok.inj same).symm⟩, fun both => by rw [both.2]; rfl⟩
  | _ =>
    simp only [messageEntries, Unpackable, Json.obj?, Option.isSome_none, Bool.false_eq_true,
      false_or, readMessages]
    split
    · rename_i filled
      exact ⟨fun same => (by cases same), fun both => absurd filled (by simp [both.1])⟩
    · rename_i unfilled
      exact ⟨fun same => ⟨Bool.eq_false_iff.mpr unfilled, (Except.ok.inj same).symm⟩,
        fun both => by rw [both.2]⟩

def winner (existing incoming : Dict String Json) (id : String) : Option Fields :=
  ((incoming.get? id).bind Json.obj?).or ((existing.get? id).bind Json.obj?)

/-- No stored object is hidden by an incoming entry that is not an object. -/
def NothingHidden (existing incoming : Dict String Json) : Prop :=
  ∀ id message, existing.get? id = some (.obj message) →
    ∀ value, incoming.get? id = some value → value.obj?.isSome = true

theorem keptMessages_get? (existing incoming : Dict String Json) (id : String) :
    (keptMessages existing incoming).get? id =
      ((incoming.get? id).or (existing.get? id)).bind Json.obj? := by
  rw [keptMessages, Dict.get?_filterMapValue, Dict.get?_merge]

theorem keptMessages_eq_winner {existing incoming : Dict String Json}
    (nothingHidden : NothingHidden existing incoming) (id : String) :
    (keptMessages existing incoming).get? id = winner existing incoming id := by
  rw [keptMessages_get?, winner]
  cases sent : incoming.get? id with
  | none => rfl
  | some value =>
    cases object : value.obj? with
    | some message => simp [object]
    | none =>
      cases stored : existing.get? id with
      | none => simp [object]
      | some old =>
        cases oldObject : old.obj? with
        | none => simp [object, oldObject]
        | some message =>
          have both := nothingHidden id message (by rw [stored, Json.obj?_eq_some.mp oldObject])
            value sent
          simp [object] at both

theorem nothingHidden_of_winner {existing incoming : Dict String Json}
    (all : ∀ id, (winner existing incoming id).isSome = true →
      ((keptMessages existing incoming).get? id).isSome = true) :
    NothingHidden existing incoming := by
  intro id message stored value sent
  have present := all id (by simp [winner, stored, Json.obj?])
  rw [keptMessages_get?, sent] at present
  simpa using present

/-- `key` is the id of a message. -/
def names (messages : Messages) (key : Json) : Bool :=
  key.str?.any (fun id => decide (id ∈ messages.keys))

def firstNamed (messages : Messages) (first second : Json) : Json :=
  if names messages first then first else if names messages second then second else .null

theorem firstNamed_again (messages : Messages) (first second : Json) :
    firstNamed messages first (firstNamed messages first second) =
      firstNamed messages first second := by
  unfold firstNamed
  by_cases sent : names messages first = true
  · simp [sent]
  · by_cases stored : names messages second = true
    · simp [sent, stored]
    · simp [sent, stored]

theorem mergeCurrentId_eq {merged : Messages} {incoming existing : Json}
    (sent : incoming.hashable = true) (stored : names merged incoming = true ∨ existing.hashable = true) :
    mergeCurrentId merged incoming existing = .ok (firstNamed merged incoming existing) := by
  simp only [firstNamed, mergeCurrentId, hasJson_hashable sent, bind, Except.bind]
  rw [← names.eq_1]
  split
  · rfl
  · rename_i other
    rw [hasJson_hashable (stored.resolve_left other), ← names.eq_1]
    dsimp only
    split <;> rfl

theorem hashable_of_mergeCurrentId {merged : Messages} {incoming existing current : Json}
    (chosen : mergeCurrentId merged incoming existing = .ok current) :
    incoming.hashable = true ∧ (names merged incoming = true ∨ existing.hashable = true) := by
  cases sent : incoming.hashable with
  | false => simp [mergeCurrentId, hasJson_unhashable sent, bind, Except.bind] at chosen
  | true =>
    refine ⟨rfl, ?_⟩
    cases stored : existing.hashable with
    | true => exact .inr rfl
    | false =>
      left
      simp only [mergeCurrentId, hasJson_hashable sent, hasJson_unhashable stored, bind,
        Except.bind] at chosen
      rw [← names.eq_1] at chosen
      by_contra other
      simp [other] at chosen

theorem withChildren_mirrored (messages : Messages) :
    (links (withChildren messages messages.keys)).Mirrored := by
  refine ((links messages).rebuilt_mirrored messages.keys_nodup).congr ?_ ?_ ?_
  · simp [withChildren, ParentLinks.rebuilt]
  · intro id member
    obtain ⟨message, found⟩ := Dict.exists_of_mem_keys member
    simp [links, withChildren, ParentLinks.rebuilt, found]
  · intro id member
    obtain ⟨message, found⟩ := Dict.exists_of_mem_keys member
    simp only [links, withChildren, Dict.get?_mapValue, found, Option.map_some, Option.getD_some]
    exact linkChildren_set_childrenIds _ _

/-- What a merge promises: every id with an object on a side keeps the winning
one up to its child list, the child lists mirror the parent links, the current
id is the first one that is a message, and merging again changes nothing. -/
structure Merged (existing_history incoming_history : Option RawHistory) (result : History) :
    Prop where
  messages : ∀ id, result.messages.get? id =
    (winner (readMessages (orEmpty existing_history).messages)
      (readMessages (orEmpty incoming_history).messages) id).map (fun message =>
        Assoc.set message "childrenIds"
          (.arr (((links result.messages).children id).map Json.str)))
  mirrored : (links result.messages).Mirrored
  currentId : result.currentId =
    firstNamed result.messages (orEmpty incoming_history).currentId
      (orEmpty existing_history).currentId
  again : merge_history (some result.raw) incoming_history = .ok result

/-- The inputs a merge handles: nothing hidden, and no list or object where an
id is looked up or a message part unpacked. -/
structure Mergeable (existing_history incoming_history : Option RawHistory) : Prop where
  unpackable : Unpackable (orEmpty existing_history).messages ∧
    Unpackable (orEmpty incoming_history).messages
  nothingHidden : NothingHidden (readMessages (orEmpty existing_history).messages)
    (readMessages (orEmpty incoming_history).messages)
  parents : ∀ id message, winner (readMessages (orEmpty existing_history).messages)
      (readMessages (orEmpty incoming_history).messages) id = some message →
    (getField message "parentId").hashable = true
  incomingId : (orEmpty incoming_history).currentId.hashable = true
  existingId : (orEmpty existing_history).currentId.hashable = true ∨
    ∃ id, (orEmpty incoming_history).currentId = .str id ∧
      (winner (readMessages (orEmpty existing_history).messages)
        (readMessages (orEmpty incoming_history).messages) id).isSome = true

section Run

variable {existing_history incoming_history : Option RawHistory}

private def kept (existing_history incoming_history : Option RawHistory) : Messages :=
  keptMessages (readMessages (orEmpty existing_history).messages)
    (readMessages (orEmpty incoming_history).messages)

private def outcome (existing_history incoming_history : Option RawHistory) : History :=
  let messages := withChildren (kept existing_history incoming_history)
    (kept existing_history incoming_history).keys
  { messages := messages
    currentId := firstNamed messages (orEmpty incoming_history).currentId
      (orEmpty existing_history).currentId
    fields := (orEmpty existing_history).fields.merge (orEmpty incoming_history).fields }

private theorem merge_history_eq
    (unpackable : Unpackable (orEmpty existing_history).messages ∧
      Unpackable (orEmpty incoming_history).messages)
    (parents : ∀ id message, (kept existing_history incoming_history).get? id = some message →
      (getField message "parentId").hashable = true)
    (sent : (orEmpty incoming_history).currentId.hashable = true)
    (stored : names (outcome existing_history incoming_history).messages
        (orEmpty incoming_history).currentId = true ∨
      (orEmpty existing_history).currentId.hashable = true) :
    merge_history existing_history incoming_history =
      .ok (outcome existing_history incoming_history) := by
  have existingRead := messageEntries_eq_ok.mpr ⟨unpackable.1, rfl⟩
  have incomingRead := messageEntries_eq_ok.mpr ⟨unpackable.2, rfl⟩
  have rebuilt := rebuildChildren_eq parents
  have chosen := mergeCurrentId_eq sent stored
  simp only [kept] at rebuilt
  simp only [merge_history, existingRead, incomingRead, bind, Except.bind, rebuilt]
  simp only [outcome, kept] at chosen ⊢
  rw [chosen]

private theorem merge_history_ok {result : History}
    (returned : merge_history existing_history incoming_history = .ok result) :
    (Unpackable (orEmpty existing_history).messages ∧
        Unpackable (orEmpty incoming_history).messages) ∧
      (∀ id message, (kept existing_history incoming_history).get? id = some message →
        (getField message "parentId").hashable = true) ∧
      (orEmpty incoming_history).currentId.hashable = true ∧
      (names (outcome existing_history incoming_history).messages
          (orEmpty incoming_history).currentId = true ∨
        (orEmpty existing_history).currentId.hashable = true) ∧
      result = outcome existing_history incoming_history := by
  have original := returned
  simp only [merge_history, bind, Except.bind] at returned
  cases existingRead : messageEntries (orEmpty existing_history).messages with
  | error error => simp [existingRead] at returned
  | ok existing =>
    cases incomingRead : messageEntries (orEmpty incoming_history).messages with
    | error error => simp [existingRead, incomingRead] at returned
    | ok incoming =>
      obtain ⟨first, rfl⟩ := messageEntries_eq_ok.mp existingRead
      obtain ⟨second, rfl⟩ := messageEntries_eq_ok.mp incomingRead
      simp only [existingRead, incomingRead] at returned
      cases rebuilt : rebuildChildren (kept existing_history incoming_history) with
      | error error =>
        simp only [kept] at rebuilt
        simp [rebuilt] at returned
      | ok merged =>
        have parents : ∀ id message,
            (kept existing_history incoming_history).get? id = some message →
            (getField message "parentId").hashable = true :=
          fun id message found => hashable_of_rebuildChildren rebuilt found
        have same := Except.ok.inj (rebuilt.symm.trans (rebuildChildren_eq parents))
        simp only [kept] at rebuilt
        simp only [rebuilt] at returned
        cases chosen : mergeCurrentId merged (orEmpty incoming_history).currentId
            (orEmpty existing_history).currentId with
        | error error => simp [chosen] at returned
        | ok current =>
          obtain ⟨sent, stored⟩ := hashable_of_mergeCurrentId chosen
          rw [same] at stored
          refine ⟨⟨first, second⟩, parents, sent, stored, ?_⟩
          exact Except.ok.inj
            (original.symm.trans (merge_history_eq ⟨first, second⟩ parents sent stored))

private theorem readMessages_raw (history : History) :
    readMessages history.raw.messages = history.messages.mapValue (fun _ message => .obj message) := by
  simp [History.raw, readMessages]

private theorem kept_again_keys :
    (kept (some (outcome existing_history incoming_history).raw) incoming_history).keys =
      (kept existing_history incoming_history).keys := by
  let merged := kept existing_history incoming_history
  let incoming := readMessages (orEmpty incoming_history).messages
  let stored := (outcome existing_history incoming_history).messages.mapValue
    (fun _ message => Json.obj message)
  have storedKeys : stored.keys = merged.keys := by
    simp [stored, outcome, withChildren, merged]
  have again : kept (some (outcome existing_history incoming_history).raw) incoming_history =
      keptMessages stored incoming := by
    simp only [kept, orEmpty, Option.getD_some, readMessages_raw]
    rfl
  rw [again, keptMessages, Dict.keys_filterMapValue, Dict.keys_merge, List.filter_append, storedKeys]
  have keepOld : merged.keys.filter
      (fun key => (((stored.merge incoming).get? key).bind Json.obj?).isSome) = merged.keys := by
    apply List.filter_eq_self.mpr
    intro id member
    have present := Dict.get?_isSome.mpr member
    obtain ⟨object, found⟩ := Dict.exists_of_mem_keys (storedKeys ▸ member)
    have isObject : object.obj?.isSome = true := by
      rw [Dict.get?_mapValue] at found
      obtain ⟨message, _, rfl⟩ := Option.map_eq_some_iff.mp found
      rfl
    simp only [merged, kept, keptMessages_get?] at present
    rw [Dict.get?_merge, found]
    cases sent : incoming.get? id with
    | none => simpa using isObject
    | some value =>
      simp only [incoming] at sent
      simpa [sent] using present
  have dropNew : (incoming.keys.filter (fun key => decide (key ∉ merged.keys))).filter
      (fun key => (((stored.merge incoming).get? key).bind Json.obj?).isSome) = [] := by
    apply List.filter_eq_nil_iff.mpr
    intro id member
    have facts := List.mem_filter.mp member
    obtain ⟨value, sent⟩ := Dict.exists_of_mem_keys facts.1
    have absent := Dict.get?_eq_none.mpr (of_decide_eq_true facts.2)
    simp only [merged, kept, keptMessages_get?] at absent
    simp only [incoming] at sent
    rw [Dict.get?_merge]
    simpa [incoming, sent] using absent
  rw [keepOld, dropNew, List.append_nil]

private theorem kept_again_get? {id : String} {message : Fields}
    (found : (kept existing_history incoming_history).get? id = some message) :
    ∃ value, (kept (some (outcome existing_history incoming_history).raw) incoming_history).get? id =
        some message ∨
      (kept (some (outcome existing_history incoming_history).raw) incoming_history).get? id =
        some (Assoc.set message "childrenIds" value) := by
  have stored : ∃ value, (outcome existing_history incoming_history).messages.get? id =
      some (Assoc.set message "childrenIds" value) := by
    simp [outcome, withChildren, found]
  obtain ⟨value, stored⟩ := stored
  refine ⟨value, ?_⟩
  have seen := found
  simp only [kept, keptMessages_get?] at seen ⊢
  simp only [orEmpty, Option.getD_some, readMessages_raw, Dict.get?_mapValue, stored]
  simp only [orEmpty] at seen
  cases sent : (readMessages (incoming_history.getD ⟨.null, .null, Dict.empty⟩).messages).get? id with
  | none => exact .inr (by simp [Json.obj?])
  | some object =>
    left
    simpa [sent] using seen

private theorem kept_linkParent_again (id : String) :
    (links (kept (some (outcome existing_history incoming_history).raw) incoming_history)).parent id =
      (links (kept existing_history incoming_history)).parent id := by
  cases found : (kept existing_history incoming_history).get? id with
  | none =>
    have absent := Dict.get?_eq_none.mp found
    rw [← kept_again_keys] at absent
    simp [links, found, Dict.get?_eq_none.mpr absent]
  | some message =>
    obtain ⟨value, same | relisted⟩ := kept_again_get? found
    · rw [links_parent same, links_parent found]
    · rw [links_parent relisted, links_parent found, linkParent_set_childrenIds]

private theorem withChildren_again :
    withChildren (kept (some (outcome existing_history incoming_history).raw) incoming_history)
        (kept (some (outcome existing_history incoming_history).raw) incoming_history).keys =
      withChildren (kept existing_history incoming_history)
        (kept existing_history incoming_history).keys := by
  apply Dict.ext_of_keys
  · simp [withChildren, kept_again_keys]
  · intro id
    rw [withChildren, withChildren, Dict.get?_mapValue, Dict.get?_mapValue]
    simp only [kept_linkParent_again, kept_again_keys]
    cases found : (kept existing_history incoming_history).get? id with
    | none =>
      have absent := Dict.get?_eq_none.mp found
      rw [← kept_again_keys] at absent
      simp [Dict.get?_eq_none.mpr absent]
    | some message =>
      obtain ⟨value, same | relisted⟩ := kept_again_get? found
      · simp [same]
      · simp [relisted]

private theorem outcome_again :
    outcome (some (outcome existing_history incoming_history).raw) incoming_history =
      outcome existing_history incoming_history := by
  let first := outcome existing_history incoming_history
  have unfolded : outcome (some first.raw) incoming_history =
      { messages := withChildren (kept (some first.raw) incoming_history)
          (kept (some first.raw) incoming_history).keys
        currentId := firstNamed (withChildren (kept (some first.raw) incoming_history)
          (kept (some first.raw) incoming_history).keys) (orEmpty incoming_history).currentId
            first.currentId
        fields := first.fields.merge (orEmpty incoming_history).fields } := rfl
  have messages : withChildren (kept (some first.raw) incoming_history)
      (kept (some first.raw) incoming_history).keys = first.messages := withChildren_again
  have currentId : firstNamed first.messages (orEmpty incoming_history).currentId first.currentId =
      first.currentId := firstNamed_again _ _ _
  have fields : first.fields.merge (orEmpty incoming_history).fields = first.fields :=
    Dict.merge_again _ _
  rw [show outcome existing_history incoming_history = first from rfl, unfolded, messages, fields,
    currentId]

private theorem hashable_of_names {messages : Messages} {key : Json}
    (named : names messages key = true) : key.hashable = true := by
  cases key with
  | str id => rfl
  | _ => simp [names, Json.str?] at named

private theorem firstNamed_hashable (messages : Messages) (first second : Json) :
    (firstNamed messages first second).hashable = true := by
  unfold firstNamed
  split
  · exact hashable_of_names ‹_›
  · split
    · exact hashable_of_names ‹_›
    · rfl

theorem merge_history_again {result : History}
    (returned : merge_history existing_history incoming_history = .ok result) :
    merge_history (some result.raw) incoming_history = .ok result := by
  obtain ⟨unpackable, parents, sent, stored, rfl⟩ := merge_history_ok returned
  have storedId : (orEmpty (some (outcome existing_history incoming_history).raw)).currentId.hashable =
      true := firstNamed_hashable _ _ _
  rw [merge_history_eq ⟨.inl rfl, unpackable.2⟩ ?_ sent (.inr storedId), outcome_again]
  intro id message found
  have member := Dict.mem_keys_of_get? found
  rw [kept_again_keys] at member
  obtain ⟨before, old⟩ := Dict.exists_of_mem_keys member
  have hashable := parents id before old
  obtain ⟨value, same | relisted⟩ := kept_again_get? old
  · exact Option.some.inj (found.symm.trans same) ▸ hashable
  · rw [Option.some.inj (found.symm.trans relisted)]
    simpa using hashable

private theorem merged_of_mergeable (mergeable : Mergeable existing_history incoming_history) :
    ∃ result, merge_history existing_history incoming_history = .ok result ∧
      Merged existing_history incoming_history result := by
  have won := keptMessages_eq_winner mergeable.nothingHidden
  have parents : ∀ id message, (kept existing_history incoming_history).get? id = some message →
      (getField message "parentId").hashable = true :=
    fun id message found => mergeable.parents id message (won id ▸ found)
  have stored : names (outcome existing_history incoming_history).messages
      (orEmpty incoming_history).currentId = true ∨
      (orEmpty existing_history).currentId.hashable = true := by
    rcases mergeable.existingId with hashable | ⟨id, same, present⟩
    · exact .inr hashable
    · left
      have member : id ∈ (kept existing_history incoming_history).keys := by
        rw [← Dict.get?_isSome, kept, won]
        exact present
      simp [names, same, Json.str?, outcome, withChildren, member]
  have run := merge_history_eq mergeable.unpackable parents mergeable.incomingId stored
  refine ⟨_, run, ⟨?_, withChildren_mirrored _, rfl, merge_history_again run⟩⟩
  intro id
  rw [← won]
  cases found : (kept existing_history incoming_history).get? id with
  | none =>
    have absent : (outcome existing_history incoming_history).messages.get? id = none := by
      simp [outcome, withChildren, found]
    simp only [kept] at found
    rw [absent, found]
    rfl
  | some message =>
    have relisted : (outcome existing_history incoming_history).messages.get? id =
        some (Assoc.set message "childrenIds" (.arr
          (((kept existing_history incoming_history).keys.filter (fun child =>
            (links (kept existing_history incoming_history)).parent child == some id)).map
              Json.str))) := by
      simp [outcome, withChildren, found]
    simp only [kept] at found
    rw [links_children relisted, linkChildren_set_childrenIds, relisted, found]
    rfl

private theorem mergeable_of_merged {result : History}
    (returned : merge_history existing_history incoming_history = .ok result)
    (merged : Merged existing_history incoming_history result) :
    Mergeable existing_history incoming_history := by
  obtain ⟨unpackable, parents, sent, stored, rfl⟩ := merge_history_ok returned
  have hidden : NothingHidden (readMessages (orEmpty existing_history).messages)
      (readMessages (orEmpty incoming_history).messages) := by
    apply nothingHidden_of_winner
    intro id present
    obtain ⟨message, won⟩ := Option.isSome_iff_exists.mp present
    have listed := merged.messages id
    rw [won] at listed
    have member := Dict.mem_keys_of_get? listed
    exact Dict.get?_isSome.mpr (by simpa [outcome, withChildren, kept] using member)
  have won := keptMessages_eq_winner hidden
  refine ⟨unpackable, hidden, fun id message found => parents id message ((won id).trans found),
    sent, ?_⟩
  rcases stored with named | hashable
  · right
    obtain ⟨id, same, member⟩ : ∃ id, (orEmpty incoming_history).currentId = .str id ∧
        id ∈ (kept existing_history incoming_history).keys := by
      simpa [names, outcome, withChildren, Option.any_eq_true, Json.str?_eq_some] using named
    refine ⟨id, same, ?_⟩
    rw [← won]
    exact Dict.get?_isSome.mpr member
  · exact .inl hashable

end Run

/-- A merge keeps its promises exactly when no stored object is hidden by an
incoming entry of the same id that is not one, and nothing is looked up or
unpacked that Python refuses. -/
theorem merge_history_iff (existing_history incoming_history : Option RawHistory) :
    (∃ result, merge_history existing_history incoming_history = .ok result ∧
        Merged existing_history incoming_history result) ↔
      Mergeable existing_history incoming_history :=
  ⟨fun ⟨_, returned, merged⟩ => mergeable_of_merged returned merged, merged_of_mergeable⟩

def hiddenStored : RawHistory where
  messages := .obj [("a", .obj [("id", .str "a"), ("content", .str "hello")])]
  currentId := .str "a"
  fields := Dict.empty

def hidingIncoming : RawHistory where
  messages := .obj [("a", .null)]
  currentId := .str "a"
  fields := Dict.empty

/-- The message is lost, and the current id with it. -/
theorem merge_history_hides :
    ∃ result, merge_history (some hiddenStored) (some hidingIncoming) = .ok result ∧
      result.messages.get? "a" = none ∧ result.currentId = .null ∧
      ¬ Merged (some hiddenStored) (some hidingIncoming) result := by
  refine ⟨⟨Dict.empty, .null, Dict.empty⟩, rfl, rfl, rfl, fun merged => ?_⟩
  have lost := merged.messages "a"
  exact absurd lost (by decide)

end OpenWebui.Chats
