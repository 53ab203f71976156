import OpenWebui.Chats.Writers

/-! What the writers of a chat leave behind when none writes over another: every field that was
set, and every item that was appended, once. -/

namespace OpenWebui.Chats

def listValue (value : Option Json) : List Json :=
  match value with
  | some items => (items.iterate.toOption).getD []
  | none => []

def listAt (messages : Messages) (message_id key : String) : List Json :=
  listValue ((messages.get? message_id).bind (fun message => message.lookup key))

/-- A payload that leaves none of the fields empty that an insertion fills in. -/
structure Complete (message : Fields) : Prop where
  id : ∀ value, message.lookup "id" = some value → value.truthy = true
  parentId : message.lookup "parentId" ≠ some .null
  childrenIds : ∀ value, message.lookup "childrenIds" = some value → listOrEmpty value = value
  role : ∀ value, message.lookup "role" = some value → value.truthy = true
  timestamp : ∀ value, message.lookup "timestamp" = some value → value.truthy = true

namespace Write

variable (formatting : Formatting)

def sets : Write → Fields
  | upsert_message _ message => withContent formatting message
  | _ => []

def appended (write : Write) (message_id key : String) : List Json :=
  if write.message_id = message_id ∧ write.field = some key then write.items else []

def readFirst : Write → Option String
  | upsert_message _ _ | add_message_status _ _ | add_message_files _ _ => none
  | embeds_event _ _ => some "embeds"
  | files_event _ _ => some "files"
  | source_event _ _ => some "sources"

/-- There is a message to append to, and nothing that an insertion would fill in. -/
def Fits (messages : Messages) : Write → Prop
  | upsert_message message_id message =>
    message_id ∈ messages.keys ∨ Complete (withContent formatting message)
  | add_message_status message_id _ | add_message_files message_id _ => message_id ∈ messages.keys
  | _ => True

theorem listed_of_field {write : Write} {key : String} (appends : write.field = some key) :
    key ∈ ["statusHistory", "files", "embeds", "sources"] := by
  cases write <;> cases appends <;> decide

theorem sets_of_field {write : Write} {key : String} (appends : write.field = some key) :
    write.sets formatting = [] := by
  cases write <;> first | rfl | cases appends

/-- No two calls set the same field of the same message, and none appends to one another sets. -/
def Apart (first second : Write) : Prop :=
  first.message_id = second.message_id → ∀ key, (first.sets formatting).lookup key ≠ none →
    (second.sets formatting).lookup key = none ∧ second.field ≠ some key

end Write

def Stage.written (write : Write) : Stage → Option History
  | .repairing chat | .loaded _ chat => some chat
  | .fetched chat =>
    match write with
    | .add_message_files _ _ => some chat
    | _ => none
  | _ => none

/-- A statement that writes over nothing: the messages are still those that its call has read, and
so is the list that it extends. -/
structure Undisturbed (formatting : Formatting) (write : Write) (stored : History)
    (stage : Stage) : Prop where
  current : ∀ chat, stage.written write = some chat → chat.messages = stored.messages
  reread : ∀ message chat, stage = .loaded message chat → ∀ key, write.readFirst = some key →
    message.lookup key = ((stored.messages.get? write.message_id).getD []).lookup key
  fits : ∀ chat, stage.written write = some chat → write.Fits formatting stored.messages

/-- What a call that succeeds does to the messages. -/
structure Wrote (formatting : Formatting) (write : Write) (before after : Messages) : Prop where
  others : ∀ id, id ≠ write.message_id → after.get? id = before.get? id
  stored : ∃ message, after.get? write.message_id = some message ∧
    (∀ key value, (write.sets formatting).lookup key = some value →
      message.lookup key = some value) ∧
    ∀ old, before.get? write.message_id = some old → ∀ key,
      (write.sets formatting).lookup key = none → write.field ≠ some key →
        message.lookup key = old.lookup key
  lists : ∀ key ∈ ["statusHistory", "files", "embeds", "sources"],
    (write.sets formatting).lookup key = none →
      (listAt after write.message_id key).Perm
        (listAt before write.message_id key ++ write.appended write.message_id key)

theorem repair_messages {history repaired : History}
    (done : repair_chat_current_id history = .ok repaired) :
    repaired.messages = history.messages := by
  unfold repair_chat_current_id at done
  obtain ⟨current_message, _, done⟩ := bind_eq_ok.mp done
  obtain ⟨output_role, _, done⟩ := bind_eq_ok.mp done
  split at done
  · obtain rfl := Except.ok.inj done
    rfl
  · obtain ⟨latest, _, done⟩ := bind_eq_ok.mp done
    split at done
    · obtain rfl := Except.ok.inj done
      split <;> rfl
    · obtain rfl := Except.ok.inj done
      rfl

theorem listValue_of_listField {message : Fields} {key : String} {items : List Json}
    (read : listField message key = .ok items) : listValue (message.lookup key) = items := by
  unfold listField getFieldD at read
  cases found : message.lookup key with
  | none =>
    rw [found] at read
    obtain rfl := Except.ok.inj read
    rfl
  | some value =>
    rw [found] at read
    cases value with
    | arr items =>
      obtain rfl := Except.ok.inj read
      rfl
    | _ => cases read

theorem listValue_of_iterate {message : Fields} {key : String} {items : List Json}
    (read : (getFieldD message key (.arr [])).iterate = .ok items) :
    listValue (message.lookup key) = items := by
  unfold getFieldD at read
  cases found : message.lookup key with
  | none =>
    rw [found] at read
    obtain rfl := Except.ok.inj read
    rfl
  | some value =>
    rw [found] at read
    simp only [Option.getD_some] at read
    simp [listValue, read, Except.toOption]

theorem lookup_getD_nil (message : Option Fields) (key : String) :
    (message.getD []).lookup key = message.bind (fun fields => fields.lookup key) := by
  cases message <;> rfl

section Upsert

variable {now : Int} {history : History} {message_id : String} {payload : Fields}

theorem lookup_insertedMessage_other {parent_id role : Json} {key : String}
    (other : key ∉ ["id", "parentId", "childrenIds", "role", "timestamp"]) :
    (insertedMessage now message_id payload parent_id role).lookup key = payload.lookup key := by
  simp only [List.mem_cons, List.not_mem_nil, or_false, not_or] at other
  obtain ⟨id, parentId, childrenIds, is_role, timestamp⟩ := other
  simp [insertedMessage, Assoc.lookup_cons_self_or, Ne.symm id, Ne.symm parentId,
    Ne.symm childrenIds, Ne.symm is_role, Ne.symm timestamp]

theorem lookup_insertedMessage {parent_id output_role value : Json} {parent : Option Fields}
    {key : String} (complete : Complete payload) (sent : payload.lookup key = some value) :
    (insertedMessage now message_id payload parent_id
      (insertedRole payload output_role parent)).lookup key = some value := by
  have given : getField payload key = value := getField_of_lookup sent
  by_cases other : key ∉ ["id", "parentId", "childrenIds", "role", "timestamp"]
  · rw [lookup_insertedMessage_other other, sent]
  · rw [not_not] at other
    simp only [List.mem_cons, List.not_mem_nil, or_false] at other
    rcases other with rfl | rfl | rfl | rfl | rfl
    · simp [insertedMessage, Assoc.lookup_cons_self_or, given, Json.orElse, complete.id value sent]
    · have named : value ≠ .null := by
        rintro rfl
        exact complete.parentId sent
      simp [insertedMessage, Assoc.lookup_cons_self_or, given, named]
    · simp [insertedMessage, Assoc.lookup_cons_self_or, given, complete.childrenIds value sent]
    · simp [insertedMessage, Assoc.lookup_cons_self_or, insertedRole, given, Json.orElse,
        complete.role value sent]
    · simp [insertedMessage, Assoc.lookup_cons_self_or, given, Json.orElse,
        complete.timestamp value sent]

theorem upsert_messages {result : History × Fields}
    (done : upsert_message_to_history now history message_id payload = .ok result) :
    ∃ message, result.1.messages = history.messages.set message_id message ∧
      (message_id ∈ history.messages.keys ∨ Complete payload →
        ∀ key value, payload.lookup key = some value → message.lookup key = some value) ∧
      (∀ old, history.messages.get? message_id = some old → ∀ key, payload.lookup key = none →
        message.lookup key = old.lookup key) ∧
      ∀ key, key ∉ ["id", "parentId", "childrenIds", "role", "timestamp"] →
        payload.lookup key = none → message.lookup key =
          (history.messages.get? message_id).bind (fun old => old.lookup key) := by
  cases found : history.messages.get? message_id with
  | some existing =>
    rw [update_eq now found] at done
    obtain rfl := Except.ok.inj done
    refine ⟨_, rfl, ?_, ?_, ?_⟩
    · intro _ key value sent
      rw [Assoc.lookup_merge, sent, Option.some_or]
    · intro old same key unsent
      obtain rfl := Option.some.inj same
      rw [Assoc.lookup_merge, unsent, Option.none_or]
    · intro key _ unsent
      rw [Assoc.lookup_merge, unsent, Option.none_or, Option.bind_some]
  | none =>
    unfold upsert_message_to_history at done
    rw [found] at done
    obtain ⟨parent_id, _, done⟩ := bind_eq_ok.mp done
    obtain ⟨parent, _, done⟩ := bind_eq_ok.mp done
    obtain ⟨output_role, _, done⟩ := bind_eq_ok.mp done
    obtain rfl := Except.ok.inj done
    refine ⟨_, rfl, ?_, ?_, ?_⟩
    · intro known key value sent
      rcases known with present | complete
      · exact absurd present (Dict.get?_eq_none.mp found)
      · exact lookup_insertedMessage complete sent
    · intro old impossible
      cases impossible
    · intro key other unsent
      rw [lookup_insertedMessage_other other, unsent, Option.bind_none]

end Upsert

section Step

variable {formatting : Formatting} {write : Write} {stored chat : History}

theorem wrote_of_set {before : Messages} {message : Fields}
    (sets : ∀ key value, (write.sets formatting).lookup key = some value →
      message.lookup key = some value)
    (kept : ∀ old, before.get? write.message_id = some old → ∀ key,
      (write.sets formatting).lookup key = none → write.field ≠ some key →
        message.lookup key = old.lookup key)
    (lists : ∀ key ∈ ["statusHistory", "files", "embeds", "sources"],
      (write.sets formatting).lookup key = none →
        (listValue (message.lookup key)).Perm
          (listAt before write.message_id key ++ write.appended write.message_id key)) :
    Wrote formatting write before (before.set write.message_id message) := by
  refine ⟨?_, ⟨message, ?_, sets, kept⟩, ?_⟩
  · intro id other
    rw [Dict.get?_set, if_neg (Ne.symm other)]
  · rw [Dict.get?_set, if_pos rfl]
  · intro key listed unset
    rw [listAt, Dict.get?_set, if_pos rfl, Option.bind_some]
    exact lists key listed unset

theorem appended_field {key : String} (appends : write.field = some key) :
    write.appended write.message_id key = write.items := by
  rw [Write.appended, if_pos ⟨rfl, appends⟩]

theorem appended_other {key : String} (other : write.field ≠ some key) :
    write.appended write.message_id key = [] := by
  rw [Write.appended, if_neg (fun both => other both.2)]

theorem wrote_of_appendTo {key : String} {result : History}
    (appends : write.field = some key) (unset : write.sets formatting = [])
    (present : write.message_id ∈ chat.messages.keys)
    (done : appendTo chat write.message_id key write.items = .ok result) :
    Wrote formatting write chat.messages result.messages := by
  obtain ⟨message, found⟩ := Option.isSome_iff_exists.mp (Dict.get?_isSome.mpr present)
  rw [appendTo, found] at done
  obtain ⟨old, read, done⟩ := bind_eq_ok.mp done
  obtain rfl := Except.ok.inj done
  refine wrote_of_set ?_ ?_ ?_
  · intro other value sent
    rw [unset] at sent
    cases sent
  · intro before same other _ elsewhere
    obtain rfl := Option.some.inj (found.symm.trans same)
    rw [Assoc.lookup_set, if_neg (fun clash => elsewhere (appends.trans (congrArg some clash)))]
  · intro other _ _
    rw [listAt, found, Option.bind_some, Assoc.lookup_set]
    by_cases same : key = other
    · subst same
      rw [if_pos rfl, appended_field appends, listValue_of_listField read]
      exact List.Perm.refl _
    · rw [if_neg same, appended_other (by rw [appends]; simpa using same), List.append_nil]

theorem upsertPayload_event {message payload : Fields} {key : String}
    (reads : write.readFirst = some key) (made : upsertPayload formatting write message = .ok payload) :
    ∃ items, payload = [(key, .arr items)] ∧
      items.Perm (listValue (message.lookup key) ++ write.items) := by
  cases write with
  | upsert_message _ _ => cases reads
  | add_message_status _ _ => cases reads
  | add_message_files _ _ => cases reads
  | embeds_event _ embeds =>
    obtain rfl := Option.some.inj reads
    obtain ⟨old, read, made⟩ := bind_eq_ok.mp made
    obtain rfl := Except.ok.inj made
    rw [listValue_of_iterate read]
    exact ⟨_, rfl, List.perm_append_comm⟩
  | files_event _ files =>
    obtain rfl := Option.some.inj reads
    obtain ⟨old, read, made⟩ := bind_eq_ok.mp made
    obtain rfl := Except.ok.inj made
    rw [listValue_of_iterate read]
    exact ⟨_, rfl, List.perm_append_comm⟩
  | source_event _ data =>
    obtain rfl := Option.some.inj reads
    obtain ⟨old, read, made⟩ := bind_eq_ok.mp made
    obtain rfl := Except.ok.inj made
    rw [listValue_of_listField read]
    exact ⟨_, rfl, List.Perm.refl _⟩

theorem list_not_filled {key : String}
    (listed : key ∈ ["statusHistory", "files", "embeds", "sources"]) :
    key ∉ ["id", "parentId", "childrenIds", "role", "timestamp"] := by
  revert key
  decide

theorem complete_of_reads {key : String} (reads : write.readFirst = some key) (items : List Json) :
    Complete [(key, .arr items)] := by
  have unfilled : ∀ filled ∈ ["id", "parentId", "childrenIds", "role", "timestamp"],
      ([(key, Json.arr items)] : Fields).lookup filled = none := by
    intro filled member
    have apart : key ≠ filled := by
      rintro rfl
      refine list_not_filled ?_ member
      cases write <;> cases reads <;> decide
    rw [Assoc.lookup_cons_self_or, if_neg apart]
    rfl
  refine ⟨?_, ?_, ?_, ?_, ?_⟩
  · simp [unfilled "id"]
  · simp [unfilled "parentId"]
  · simp [unfilled "childrenIds"]
  · simp [unfilled "role"]
  · simp [unfilled "timestamp"]

theorem wrote_of_upsert {now : Int} {message_id : String} {message : Fields}
    {result : History × Fields}
    (fits : (Write.upsert_message message_id message).Fits formatting chat.messages)
    (done : upsert_message_to_history now chat message_id (withContent formatting message) =
      .ok result) :
    Wrote formatting (.upsert_message message_id message) chat.messages result.1.messages := by
  obtain ⟨stored, same, sets, kept, rest⟩ := upsert_messages done
  rw [same]
  refine wrote_of_set (sets fits) ?_ ?_
  · intro old found key unset _
    exact kept old found key unset
  · intro key listed unset
    rw [rest key (list_not_filled listed) unset, appended_other (by simp [Write.field]),
      List.append_nil]
    exact List.Perm.refl _

theorem wrote_of_event {now : Int} {message payload : Fields} {key : String}
    {result : History × Fields} (reads : write.readFirst = some key)
    (reread : message.lookup key =
      ((chat.messages.get? write.message_id).getD []).lookup key)
    (made : upsertPayload formatting write message = .ok payload)
    (done : upsert_message_to_history now chat write.message_id payload = .ok result) :
    Wrote formatting write chat.messages result.1.messages := by
  obtain ⟨items, rfl, whole⟩ := upsertPayload_event reads made
  have appends : write.field = some key := by cases write <;> first | exact reads | cases reads
  have unset : write.sets formatting = [] := by cases write <;> first | rfl | cases reads
  obtain ⟨stored, same, sets, kept, rest⟩ := upsert_messages done
  have complete : Complete [(key, .arr items)] := complete_of_reads reads items
  rw [same]
  refine wrote_of_set ?_ ?_ ?_
  · intro other value sent
    rw [unset] at sent
    cases sent
  · intro old found other _ elsewhere
    refine kept old found other ?_
    rw [Assoc.lookup_cons_self_or, if_neg (fun clash => elsewhere (appends.trans (congrArg some clash)))]
    rfl
  · intro other is_list _
    by_cases here : key = other
    · subst here
      rw [sets (.inr complete) key (.arr items) (by simp), appended_field appends, listAt,
        ← lookup_getD_nil, ← reread]
      exact whole
    · rw [rest other (list_not_filled is_list) (by simp [Assoc.lookup_cons_self_or, here]),
        appended_other (by rw [appends]; simpa using here), List.append_nil]
      exact List.Perm.refl _

theorem load_unfinished {message : Fields} (stored : History) :
    load message stored ≠ .finished true := by
  unfold load
  split <;> simp

theorem fetch_unfinished (stored : History) : fetch stored ≠ .finished true := by
  unfold fetch
  split
  · split <;> simp
  · simp

theorem store_cases {result : Except PyError History} {after : History} {stage : Stage}
    (done : store stored result = (after, stage)) :
    (stage ≠ .finished true ∧ after = stored) ∨ (stage = .finished true ∧ result = .ok after) := by
  unfold store at done
  cases result with
  | error error =>
    obtain ⟨rfl, rfl⟩ := Prod.mk.inj done
    exact .inl ⟨by simp, rfl⟩
  | ok chat =>
    obtain ⟨rfl, rfl⟩ := Prod.mk.inj done
    exact .inr ⟨rfl, rfl⟩

theorem next_cases {now : Int} {stage later : Stage} {after : History}
    (undisturbed : Undisturbed formatting write stored stage)
    (taken : next formatting now write stored stage = some (after, later)) :
    (later ≠ .finished true ∧ after.messages = stored.messages) ∨
      (later = .finished true ∧ Wrote formatting write stored.messages after.messages) := by
  cases stage with
  | idle =>
    cases write <;>
    · obtain ⟨rfl, rfl⟩ := Prod.mk.inj (Option.some.inj taken)
      first
        | exact .inl ⟨load_unfinished stored, rfl⟩
        | exact .inl ⟨fetch_unfinished stored, rfl⟩
  | repairing chat =>
    obtain ⟨rfl, rfl⟩ := Prod.mk.inj (Option.some.inj taken)
    exact .inl ⟨by simp, undisturbed.current chat rfl⟩
  | fetched chat =>
    cases write
    case add_message_files message_id files =>
      rcases store_cases (Option.some.inj taken) with ⟨unfinished, rfl⟩ | ⟨finished, done⟩
      · exact .inl ⟨unfinished, rfl⟩
      · have same := undisturbed.current chat rfl
        have present : message_id ∈ stored.messages.keys := undisturbed.fits chat rfl
        rw [← same] at present ⊢
        exact .inr ⟨finished, wrote_of_appendTo rfl rfl present done⟩
    all_goals
      simp only [next] at taken
      split at taken
      · obtain ⟨rfl, rfl⟩ := Prod.mk.inj (Option.some.inj taken)
        exact .inl ⟨load_unfinished stored, rfl⟩
      · obtain ⟨rfl, rfl⟩ := Prod.mk.inj (Option.some.inj taken)
        exact .inl ⟨by simp, rfl⟩
  | loaded message chat =>
    have same := undisturbed.current chat rfl
    have fits := undisturbed.fits chat rfl
    have reread := undisturbed.reread message chat rfl
    rw [← same] at fits reread ⊢
    by_cases status : ∃ message_id status, write = .add_message_status message_id status
    · obtain ⟨message_id, status, rfl⟩ := status
      rcases store_cases (Option.some.inj taken) with ⟨unfinished, rfl⟩ | ⟨finished, done⟩
      · exact .inl ⟨unfinished, same.symm⟩
      · exact .inr ⟨finished, wrote_of_appendTo rfl rfl fits done⟩
    · have upserts : store stored (do
          let payload ← upsertPayload formatting write message
          let result ← upsert_message_to_history now chat write.message_id payload
          .ok result.1) = (after, later) := by
        cases write <;> first | exact Option.some.inj taken | exact absurd ⟨_, _, rfl⟩ status
      rcases store_cases upserts with ⟨unfinished, rfl⟩ | ⟨finished, done⟩
      · exact .inl ⟨unfinished, same.symm⟩
      · obtain ⟨payload, made, done⟩ := bind_eq_ok.mp done
        obtain ⟨result, upserted, done⟩ := bind_eq_ok.mp done
        obtain rfl := Except.ok.inj done
        refine .inr ⟨finished, ?_⟩
        cases reads : write.readFirst with
        | some key => exact wrote_of_event reads (reread key reads) made upserted
        | none =>
          cases write with
          | upsert_message message_id payload =>
            obtain rfl := Except.ok.inj made
            exact wrote_of_upsert fits upserted
          | add_message_status _ _ => cases made
          | add_message_files _ _ => cases made
          | embeds_event _ _ => cases reads
          | files_event _ _ => cases reads
          | source_event _ _ => cases reads
  | finished success => cases taken

end Step

namespace Writers

section Kept

variable (formatting : Formatting) (writes : Nat → Write)

/-- The next statement of a call writes over nothing. -/
def Orderly (writers : Writers) (event : Nat × Int) : Prop :=
  Undisturbed formatting (writes event.1) writers.stored (writers.calls event.1)

/-- What holds after undisturbed statements: the fields of every call are set, and every list that
none sets holds what it held at first and what was appended to it. -/
structure Inv (initial : Messages) (writers : Writers) : Prop where
  nodup : writers.succeeded.Nodup
  ended : ∀ call ∈ writers.succeeded, writers.calls call = .finished true
  set : ∀ call ∈ writers.succeeded, ∃ message,
    writers.stored.messages.get? (writes call).message_id = some message ∧
      ∀ key value, ((writes call).sets formatting).lookup key = some value →
        message.lookup key = some value
  lists : ∀ message_id, ∀ key ∈ ["statusHistory", "files", "embeds", "sources"],
    (∀ call, (writes call).message_id = message_id →
      ((writes call).sets formatting).lookup key = none) →
    (listAt writers.stored.messages message_id key).Perm (listAt initial message_id key ++
      writers.succeeded.flatMap (fun call => (writes call).appended message_id key))

variable {formatting writes} {initial : Messages} {old new : Writers} {event : Nat × Int}

theorem Inv.same (inv : Inv formatting writes initial old) {stored : History} {stage : Stage}
    (call : Nat) (running : old.calls call ≠ .finished true)
    (same : stored.messages = old.stored.messages) :
    Inv formatting writes initial ⟨stored, Function.update old.calls call stage, old.succeeded⟩ := by
  refine ⟨inv.nodup, ?_, ?_, ?_⟩
  · intro other succeeded
    have apart : other ≠ call := by
      rintro rfl
      exact running (inv.ended other succeeded)
    exact (Function.update_of_ne apart stage old.calls).trans (inv.ended other succeeded)
  · rw [same]
    exact inv.set
  · rw [same]
    exact inv.lists

theorem Inv.wrote (apart : ∀ first second, first ≠ second →
      (writes first).Apart formatting (writes second))
    (inv : Inv formatting writes initial old) {stored : History} (call : Nat)
    (running : old.calls call ≠ .finished true)
    (wrote : Wrote formatting (writes call) old.stored.messages stored.messages) :
    Inv formatting writes initial
      ⟨stored, Function.update old.calls call (.finished true), old.succeeded ++ [call]⟩ := by
  have fresh : call ∉ old.succeeded := fun succeeded => running (inv.ended call succeeded)
  refine ⟨?_, ?_, ?_, ?_⟩
  · refine List.nodup_append.mpr ⟨inv.nodup, List.nodup_singleton call, ?_⟩
    intro other succeeded last is_last same
    exact fresh (List.mem_singleton.mp is_last ▸ same ▸ succeeded)
  · intro other succeeded
    by_cases same : other = call
    · subst same
      exact Function.update_self ..
    · refine (Function.update_of_ne same _ old.calls).trans (inv.ended other ?_)
      simpa [same] using succeeded
  · intro other succeeded
    obtain ⟨message, stored_, sets, kept⟩ := wrote.stored
    by_cases same : other = call
    · subst same
      exact ⟨message, stored_, sets⟩
    · obtain ⟨before, found, fields⟩ := inv.set other (by simpa [same] using succeeded)
      by_cases here : (writes other).message_id = (writes call).message_id
      · refine ⟨message, here ▸ stored_, ?_⟩
        intro key value sent
        have free := apart other call same here key (by simp [sent])
        rw [kept before (here ▸ found) key free.1 free.2]
        exact fields key value sent
      · exact ⟨before, (wrote.others _ here).trans found, fields⟩
  · intro message_id key listed unset
    have before := inv.lists message_id key listed unset
    rw [List.flatMap_append, List.flatMap_singleton, ← List.append_assoc]
    by_cases here : (writes call).message_id = message_id
    · subst here
      exact (wrote.lists key listed (unset call rfl)).trans (before.append_right _)
    · have nothing : (writes call).appended message_id key = [] := by
        rw [Write.appended, if_neg (fun both => here both.1)]
      rw [nothing, List.append_nil, listAt, wrote.others message_id (Ne.symm here)]
      exact before

theorem Inv.step (apart : ∀ first second, first ≠ second →
      (writes first).Apart formatting (writes second))
    (inv : Inv formatting writes initial old) (orderly : old.Orderly formatting writes event)
    (acted : act formatting writes old event = some new) : Inv formatting writes initial new := by
  obtain ⟨⟨after, later⟩, taken, rfl⟩ := Option.map_eq_some_iff.mp acted
  have running : old.calls event.1 ≠ .finished true := by
    intro finished
    rw [finished] at taken
    cases taken
  rcases next_cases orderly taken with ⟨unfinished, same⟩ | ⟨rfl, wrote⟩
  · have unchanged := @Inv.same formatting writes initial old inv after later event.1 running same
    split
    · rename_i finished
      exact absurd finished unfinished
    · exact unchanged
  · exact inv.wrote apart event.1 running wrote

theorem Inv.start (initial : History) :
    Inv formatting writes initial.messages (start initial) := by
  refine ⟨List.nodup_nil, ?_, ?_, ?_⟩
  · simp [Writers.start]
  · simp [Writers.start]
  · intro message_id key _ _
    simp [Writers.start]

end Kept

/-- After undisturbed statements every message has the fields that calls have set, and every item
that calls have appended, once for each. -/
theorem writes_kept (formatting : Formatting) (writes : Nat → Write)
    (apart : ∀ first second, first ≠ second → (writes first).Apart formatting (writes second))
    {initial : History} {events : List (Nat × Int)} {final : Writers}
    (orderly : Runs.Always (fun earlier event => ∀ old,
      run formatting writes (Writers.start initial) earlier = some old →
        old.Orderly formatting writes event) events)
    (ran : run formatting writes (Writers.start initial) events = some final) :
    final.succeeded.Nodup ∧ ∀ call ∈ final.succeeded, ∃ message,
      final.stored.messages.get? (writes call).message_id = some message ∧
        (∀ key value, ((writes call).sets formatting).lookup key = some value →
          message.lookup key = some value) ∧
        ∀ key, (writes call).field = some key →
          (listValue (message.lookup key)).Perm
            (listAt initial.messages (writes call).message_id key ++ final.succeeded.flatMap
              (fun other => (writes other).appended (writes call).message_id key)) := by
  have inv := Runs.foldlM_invariant (Inv formatting writes initial.messages)
    (fun _ _ _ inv good acted => inv.step apart good acted) (Inv.start initial) orderly ran
  refine ⟨inv.nodup, ?_⟩
  intro call succeeded
  obtain ⟨message, found, fields⟩ := inv.set call succeeded
  refine ⟨message, found, fields, ?_⟩
  intro key appends
  have whole := inv.lists (writes call).message_id key (Write.listed_of_field appends) ?_
  · rw [listAt, found, Option.bind_some] at whole
    exact whole
  · intro other here
    by_cases same : other = call
    · rw [same, Write.sets_of_field formatting appends]
      rfl
    · by_contra set_
      exact (apart other call same here key set_).2 appends

def answerAndStatus : Nat → Write
  | 0 => .upsert_message "b" [("content", .str "hello"), ("role", .str "assistant")]
  | number + 1 => .add_message_status "a" (.num number)

def noFormatting : Formatting := ⟨fun _ => "", fun _ => ""⟩

theorem answerAndStatus_apart (first second : Nat) (_ : first ≠ second) :
    (answerAndStatus first).Apart noFormatting (answerAndStatus second) := by
  intro here key set_
  cases first with
  | zero =>
    cases second with
    | zero => contradiction
    | succ number => simp [answerAndStatus, Write.message_id] at here
  | succ number => simp [answerAndStatus, Write.sets] at set_

theorem undisturbed_idle {formatting : Formatting} {write : Write} {stored : History} :
    Undisturbed formatting write stored .idle := by
  refine ⟨?_, ?_, ?_⟩ <;> simp [Stage.written]

theorem undisturbed_load {formatting : Formatting} {write : Write} {stored : History}
    (once : write.readFirst = none) (fits : write.Fits formatting stored.messages) :
    Undisturbed formatting write stored (load [] stored) := by
  unfold load
  split
  · rename_i chat repaired
    refine ⟨?_, ?_, fun _ _ => fits⟩
    · intro written same
      obtain rfl := Option.some.inj same
      exact repair_messages repaired
    · intro _ _ _ key reads
      rw [once] at reads
      cases reads
  · refine ⟨?_, ?_, ?_⟩ <;> simp [Stage.written]

def oneByOne : List (Nat × Int) := [(0, 1), (0, 2), (1, 3), (1, 4)]

theorem answer_complete :
    Complete (withContent noFormatting [("content", .str "hello"), ("role", .str "assistant")]) := by
  refine ⟨?_, ?_, ?_, ?_, ?_⟩ <;> simp [withContent, getField, Assoc.lookup_cons_self_or]

theorem oneByOne_kept : ∃ final,
    run noFormatting answerAndStatus (start question) oneByOne = some final ∧
      final.succeeded = [0, 1] ∧ ∃ message, final.stored.messages.get? "b" = some message ∧
        message.lookup "content" = some (.str "hello") := by
  have succeeded : (run noFormatting answerAndStatus (start question) oneByOne).map
      Writers.succeeded = some [0, 1] := by decide +kernel
  obtain ⟨final, ran, both⟩ := Option.map_eq_some_iff.mp succeeded
  have kept := writes_kept noFormatting answerAndStatus answerAndStatus_apart ?_ ran
  · obtain ⟨message, found, sets, _⟩ := kept.2 0 (by rw [both]; decide)
    exact ⟨final, ran, both, message, found, sets "content" (.str "hello") rfl⟩
  · simp only [oneByOne, Runs.always_cons, Runs.always_nil, and_true]
    refine ⟨?_, ?_, ?_, ?_⟩
    · rintro old reached
      obtain rfl := Option.some.inj reached
      exact undisturbed_idle
    · rintro old reached
      obtain rfl := Option.some.inj reached
      exact undisturbed_load rfl (.inr answer_complete)
    · rintro old reached
      obtain rfl := Option.some.inj reached
      exact undisturbed_idle
    · rintro old reached
      obtain rfl := Option.some.inj reached
      refine undisturbed_load rfl ?_
      change "a" ∈ Dict.keys _
      decide +kernel

/-- A status that is written back with the history from before the answer takes the answer away,
though both calls report success. -/
theorem answer_lost : ¬ ∀ (formatting : Formatting) (writes : Nat → Write) (initial : History)
    (events : List (Nat × Int)) (final : Writers),
    (∀ first second, first ≠ second → (writes first).Apart formatting (writes second)) →
      run formatting writes (start initial) events = some final →
        ∀ call ∈ final.succeeded, ∃ message,
          final.stored.messages.get? (writes call).message_id = some message := by
  intro kept
  have left : (run noFormatting answerAndStatus (start question)
      [(0, 1), (1, 2), (0, 3), (1, 4)]).map
        (fun final => (final.succeeded, final.stored.messages.keys)) = some ([0, 1], ["a"]) := by
    decide +kernel
  obtain ⟨final, ran, both⟩ := Option.map_eq_some_iff.mp left
  obtain ⟨succeeded, keys⟩ := Prod.mk.inj both
  obtain ⟨message, found⟩ := kept noFormatting answerAndStatus question _ final
    answerAndStatus_apart ran 0 (by rw [succeeded]; decide)
  have present := Dict.mem_keys_of_get? found
  rw [keys] at present
  exact absurd present (by decide)

end Writers

end OpenWebui.Chats
