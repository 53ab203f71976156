import OpenWebui.Base.Sequence
import OpenWebui.Channels.References

/-! Every message of a channel is reached through the listings, and its replies are counted, exactly
when no message is posted or changed with a meta that cannot be read or with an empty parent, and
no message with replies is deleted. -/

namespace OpenWebui.Channels

/-- The sender of a message can be told from its meta. -/
def MetaReadable (message_meta : Option Fields) : Prop :=
  ∃ webhook_id, webhookInfo message_meta = .ok webhook_id

/-- Some page of the top level of the channel has the message. -/
def ListedIn (tables : Tables) (channel_id id : String) : Prop :=
  ∃ skip limit listing, get_messages_by_channel_id tables channel_id skip limit = .ok listing ∧
    id ∈ listing.map (fun found => found.shown.id)

/-- Some page of the thread has the message. -/
def InThread (tables : Tables) (channel_id parent_id id : String) : Prop :=
  ∃ skip limit listing,
    get_messages_by_parent_id tables channel_id parent_id skip limit = .ok listing ∧
      id ∈ listing.map (fun found => found.shown.id)

/-- The messages that are reached from the top level of a channel through its threads. -/
inductive Reachable (tables : Tables) (channel_id : String) : String → Prop where
  | top {id : String} (listed : ListedIn tables channel_id id) : Reachable tables channel_id id
  | thread {head id : String} (above : Reachable tables channel_id head)
      (listed : InThread tables channel_id head id) : Reachable tables channel_id id

/-- The count is that of the messages in the thread, besides its head. -/
def CountsReplies (tables : Tables) (channel_id id : String) (count : Nat) : Prop :=
  ∃ ids : List String, ids.Nodup ∧
    (∀ other, other ∈ ids ↔ other ≠ id ∧ InThread tables channel_id id other) ∧ count = ids.length

/-- Every message of a channel is reached, and the replies of those that are reached are counted. -/
structure NothingLost (tables : Tables) : Prop where
  reached : ∀ id message channel_id, tables.message.get? id = some message →
    message.channel_id = some channel_id → Reachable tables channel_id id
  counted : ∀ channel_id id, Reachable tables channel_id id →
    CountsReplies tables channel_id id (get_thread_reply_count tables id).1
  reported : ∀ channel_id id message, Reachable tables channel_id id →
    get_message_by_id tables id = .ok (some message) →
      CountsReplies tables channel_id id message.reply_count

/-- The messages can be read, and those that have a parent name one that is there. -/
structure Headed (tables : Tables) : Prop where
  readable : ∀ id message, tables.message.get? id = some message →
    MetaReadable message.message_meta
  headed : ∀ id message parent_id, tables.message.get? id = some message →
    message.parent_id = some parent_id → ∃ head, tables.message.get? parent_id = some head

section Listings

variable {tables : Tables}

theorem response_shown {reads : String → Except PyError (Option MessageReplyToResponse)}
    {row : String × Message} {found : MessageReplyToResponse}
    (done : response tables reads row = .ok found) :
    found.shown.id = row.1 ∧ MetaReadable row.2.message_meta := by
  obtain ⟨reply, _, done⟩ := bind_eq_ok.mp done
  obtain ⟨user, sender, done⟩ := bind_eq_ok.mp done
  obtain rfl := Except.ok.inj done
  obtain ⟨webhook_id, info, _⟩ := map_eq_ok.mp sender
  exact ⟨rfl, webhook_id, info⟩

theorem readAll_ids {rows : List (String × Message)} {listing : List MessageReplyToResponse}
    (done : readAll tables rows = .ok listing) :
    listing.map (fun found => found.shown.id) = rows.map Prod.fst := by
  have all := Sequence.mapM_eq_ok.mp done
  clear done
  induction all with
  | nil => rfl
  | cons answer _ ih =>
    rw [List.map_cons, List.map_cons, ih, (response_shown answer).1]

theorem readAll_each {rows : List (String × Message)} {listing : List MessageReplyToResponse}
    (done : readAll tables rows = .ok listing) {row : String × Message} (member : row ∈ rows) :
    MetaReadable row.2.message_meta := by
  have listed : response tables (read tables) row ∈ listing.map Except.ok := by
    rw [← map_of_mapM done]
    exact List.mem_map_of_mem member
  obtain ⟨found, _, answer⟩ := List.mem_map.mp listed
  exact (response_shown answer.symm).2

theorem listedIn_some {channel_id id : String} (listed : ListedIn tables channel_id id) :
    ∃ message, tables.message.get? id = some message ∧ message.channel_id = some channel_id ∧
      message.parent_id = none ∧ MetaReadable message.message_meta := by
  obtain ⟨skip, limit, listing, done, member⟩ := listed
  rw [readAll_ids done] at member
  obtain ⟨row, inside, rfl⟩ := List.mem_map.mp member
  obtain ⟨stored, channel, top⟩ := mem_topLevel.mp (mem_newestFirst.mp (mem_of_mem_page inside))
  exact ⟨row.2, stored, channel, top, readAll_each done inside⟩

theorem inThread_some {channel_id parent_id id : String}
    (listed : InThread tables channel_id parent_id id) :
    ∃ head message, tables.message.get? parent_id = some head ∧
      tables.message.get? id = some message ∧ message.channel_id = some channel_id ∧
        MetaReadable message.message_meta ∧
          (id = parent_id ∨ message.parent_id = some parent_id) := by
  obtain ⟨skip, limit, listing, done, member⟩ := listed
  unfold get_messages_by_parent_id at done
  split at done
  · obtain rfl := Except.ok.inj done
    cases member
  · rename_i head found
    obtain ⟨stored, inside⟩ := Option.filter_eq_some_iff.mp found
    rw [readAll_ids done] at member
    obtain ⟨row, shown, rfl⟩ := List.mem_map.mp member
    have readable := readAll_each done shown
    have place : row ∈ threadOf tables channel_id parent_id ∨ row = (parent_id, head) := by
      unfold threadPage at shown
      dsimp only at shown
      split at shown
      · rcases List.mem_append.mp shown with reply | last
        · exact Or.inl (mem_newestFirst.mp (mem_of_mem_page reply))
        · exact Or.inr (List.mem_singleton.mp last)
      · exact Or.inl (mem_newestFirst.mp (mem_of_mem_page shown))
    rcases place with reply | rfl
    · obtain ⟨there, channel, parent⟩ := mem_threadOf.mp reply
      exact ⟨head, row.2, stored, there, channel, readable, Or.inr parent⟩
    · exact ⟨head, head, stored, stored, of_decide_eq_true inside, readable, Or.inl rfl⟩

theorem reachable_some {channel_id id : String} (reached : Reachable tables channel_id id) :
    ∃ message, tables.message.get? id = some message ∧ message.channel_id = some channel_id ∧
      MetaReadable message.message_meta ∧ ∀ parent_id, message.parent_id = some parent_id →
        ∃ head, tables.message.get? parent_id = some head := by
  induction reached with
  | top listed =>
    obtain ⟨message, stored, channel, top, readable⟩ := listedIn_some listed
    refine ⟨message, stored, channel, readable, ?_⟩
    intro parent_id parent
    rw [top] at parent
    cases parent
  | thread above listed ih =>
    obtain ⟨head, message, there, stored, channel, readable, place⟩ := inThread_some listed
    rcases place with rfl | parent
    · exact ih
    · refine ⟨message, stored, channel, readable, ?_⟩
      intro parent_id parent'
      obtain rfl := Option.some.inj (parent.symm.trans parent')
      exact ⟨head, there⟩

end Listings

section States

variable {tables : Tables}

theorem response_ok (sound : Sound tables)
    (readable : ∀ id message, tables.message.get? id = some message →
      MetaReadable message.message_meta) {id : String} {message : Message}
    (stored : tables.message.get? id = some message) :
    ∃ found, response tables (read tables) (id, message) = .ok found := by
  obtain ⟨rank, ordered⟩ := sound.ordered
  -- The quoted message comes before the one that quotes it.
  induction low : rank id using Nat.strong_induction_on generalizing id message with
  | _ bound ih =>
    obtain ⟨webhook_id, info⟩ := readable id message stored
    have sender : ∃ user, senderOf tables message = .ok user := by
      unfold senderOf
      rw [info]
      exact ⟨_, rfl⟩
    obtain ⟨user, sender⟩ := sender
    cases named : given message.reply_to_id with
    | none =>
      rw [response_none named, sender]
      exact ⟨_, rfl⟩
    | some other =>
      have reads : ∃ found, read tables other = .ok found := by
        rw [read_eq sound]
        cases there : tables.message.get? other with
        | none => exact ⟨none, rfl⟩
        | some quoted =>
          have lower : rank other < bound := by
            rw [← low]
            exact ordered id message other stored (Or.inr (given_eq_some.mp named).1)
          obtain ⟨found, answer⟩ := ih (rank other) lower there rfl
          dsimp only
          rw [answer]
          exact ⟨some found, rfl⟩
      obtain ⟨found, reads⟩ := reads
      rw [response_some named, reads, Except.bind, sender]
      exact ⟨_, rfl⟩

theorem readAll_ok (sound : Sound tables)
    (readable : ∀ id message, tables.message.get? id = some message →
      MetaReadable message.message_meta) {rows : List (String × Message)}
    (stored : ∀ row ∈ rows, tables.message.get? row.1 = some row.2) :
    ∃ listing, readAll tables rows = .ok listing ∧
      listing.map (fun found => found.shown.id) = rows.map Prod.fst := by
  obtain ⟨listing, done⟩ := Sequence.mapM_goes_through (fun row member =>
    response_ok sound readable (stored row member))
  exact ⟨listing, done, readAll_ids done⟩

variable (sound : Sound tables) (kept : Headed tables)
include sound kept

theorem listedIn_of_headed {channel_id id : String} {message : Message}
    (stored : tables.message.get? id = some message) (inside : message.channel_id = some channel_id)
    (top : message.parent_id = none) : ListedIn tables channel_id id := by
  have here : (id, message) ∈ newestFirst (topLevel tables channel_id) :=
    mem_newestFirst.mpr (mem_topLevel.mpr ⟨stored, inside, top⟩)
  obtain ⟨listing, done, ids⟩ := @readAll_ok _ sound kept.readable
    (newestFirst (topLevel tables channel_id))
    (fun row member => (mem_topLevel.mp (mem_newestFirst.mp member)).1)
  refine ⟨0, (newestFirst (topLevel tables channel_id)).length, listing, ?_, ?_⟩
  · rw [get_messages_by_channel_id, page_all (Nat.le_refl _)]
    exact done
  · rw [ids]
    exact List.mem_map_of_mem here

theorem inThread_of_headed {channel_id parent_id id : String} {head message : Message}
    (there : tables.message.get? parent_id = some head)
    (within : head.channel_id = some channel_id) (stored : tables.message.get? id = some message)
    (inside : message.channel_id = some channel_id) (parent : message.parent_id = some parent_id) :
    InThread tables channel_id parent_id id := by
  have here : (id, message) ∈ newestFirst (threadOf tables channel_id parent_id) :=
    mem_newestFirst.mpr (mem_threadOf.mpr ⟨stored, inside, parent⟩)
  obtain ⟨listing, done, ids⟩ := @readAll_ok _ sound kept.readable
    (newestFirst (threadOf tables channel_id parent_id))
    (fun row member => (mem_threadOf.mp (mem_newestFirst.mp member)).1)
  refine ⟨0, (newestFirst (threadOf tables channel_id parent_id)).length, listing, ?_, ?_⟩
  · have found : (tables.message.get? parent_id).filter (fun message =>
        decide (message.channel_id = some channel_id)) = some head :=
      Option.filter_eq_some_iff.mpr ⟨there, decide_eq_true within⟩
    rw [get_messages_by_parent_id, found]
    dsimp only [threadPage]
    rw [page_all (Nat.le_refl _), if_neg (Nat.lt_irrefl _)]
    exact done
  · rw [ids]
    exact List.mem_map_of_mem here

theorem reachable_of_headed {channel_id id : String} {message : Message}
    (stored : tables.message.get? id = some message)
    (inside : message.channel_id = some channel_id) : Reachable tables channel_id id := by
  obtain ⟨rank, ordered⟩ := sound.ordered
  induction low : rank id using Nat.strong_induction_on generalizing id message with
  | _ bound ih =>
    cases parent : message.parent_id with
    | none => exact .top (listedIn_of_headed sound kept stored inside parent)
    | some parent_id =>
      obtain ⟨head, there⟩ := kept.headed id message parent_id stored parent
      have within : head.channel_id = some channel_id := by
        rw [sound.inside id message parent_id head stored (Or.inl parent) there, inside]
      have lower : rank parent_id < bound := by
        rw [← low]
        exact ordered id message parent_id stored (Or.inl parent)
      exact .thread (ih (rank parent_id) lower there within rfl)
        (inThread_of_headed sound kept there within stored inside parent)

theorem repliesTo_counts {channel_id id : String} (reached : Reachable tables channel_id id) :
    CountsReplies tables channel_id id (repliesTo tables id).length := by
  obtain ⟨head, there, within, _⟩ := reachable_some reached
  obtain ⟨rank, ordered⟩ := sound.ordered
  refine ⟨(repliesTo tables id).map Prod.fst, ?_, ?_, (List.length_map _).symm⟩
  · exact tables.message.unique.sublist (List.filter_sublist.map Prod.fst)
  · intro other
    have replies : ∀ row : String × Message, row ∈ repliesTo tables id ↔
        tables.message.get? row.1 = some row.2 ∧ row.2.parent_id = some id := by
      intro row
      rw [repliesTo, List.mem_filter, decide_eq_true_eq, ← Dict.mem_entries_iff]
    constructor
    · intro member
      obtain ⟨row, reply, rfl⟩ := List.mem_map.mp member
      obtain ⟨stored, parent⟩ := (replies row).mp reply
      constructor
      · rintro same
        have lower := ordered row.1 row.2 id stored (Or.inl parent)
        rw [same] at lower
        exact Nat.lt_irrefl _ lower
      · have inside : row.2.channel_id = some channel_id := by
          rw [← sound.inside row.1 row.2 id head stored (Or.inl parent) there, within]
        exact inThread_of_headed sound kept there within stored inside parent
    · rintro ⟨apart, listed⟩
      obtain ⟨_, message, _, stored, _, _, place⟩ := inThread_some listed
      rcases place with same | parent
      · exact absurd same apart
      · exact List.mem_map.mpr ⟨(other, message), (replies _).mpr ⟨stored, parent⟩, rfl⟩

theorem nothingLost_of_headed : NothingLost tables where
  reached := fun _ _ _ stored inside => reachable_of_headed sound kept stored inside
  counted := fun _ _ reached => repliesTo_counts sound kept reached
  reported := by
    intro channel_id id message reached reads
    obtain ⟨_, _, _, _, replies, threads, count⟩ := get_message_by_id_some reads
    have length : replies.length = (repliesTo tables id).length := by
      rw [← List.length_map (fun found => found.shown.id), readAll_ids threads, List.length_map,
        newestFirst, List.length_mergeSort]
    rw [count, length]
    exact repliesTo_counts sound kept reached

omit kept in
theorem nothingLost_iff : NothingLost tables ↔ Headed tables := by
  constructor
  · intro nothing
    constructor
    · intro id message stored
      obtain ⟨channel_id, inside⟩ := sound.placed id message stored
      obtain ⟨message', stored', _, readable, _⟩ :=
        reachable_some (nothing.reached id message channel_id stored inside)
      obtain rfl := Option.some.inj (stored.symm.trans stored')
      exact readable
    · intro id message parent_id stored parent
      obtain ⟨channel_id, inside⟩ := sound.placed id message stored
      obtain ⟨message', stored', _, _, headed⟩ :=
        reachable_some (nothing.reached id message channel_id stored inside)
      obtain rfl := Option.some.inj (stored.symm.trans stored')
      exact headed parent_id parent
  · exact nothingLost_of_headed sound

end States

/-- A message is posted with a meta that can be read and without an empty parent, stays readable
when it is changed, and has no replies when it is deleted. -/
structure Keeping (tables : Tables) (event : Event) : Prop where
  posted : ∀ id form, event.request.post? = some (id, form) →
    form.parent_id ≠ some "" ∧ MetaReadable form.message_meta
  updated : ∀ id message_id form message,
    event.request = .update_message_by_id id message_id form →
      tables.message.get? message_id = some message → MetaReadable
        (some (Assoc.merge (message.message_meta.getD []) (form.message_meta.getD [])))
  deleted : ∀ id message_id, event.request = .delete_message_by_id id message_id →
    ∀ reply message, tables.message.get? reply = some message →
      message.parent_id ≠ some message_id

section Step

variable {tables after : Tables} {event : Event}

theorem keeping_of_silent (silent : event.request.silent = true) : Keeping tables event where
  posted := by
    intro id form asked
    cases request : event.request with
    | post_new_message id form => rw [request] at silent; cases silent
    | model_response_handler id message_id parent_id thread model_id model_name =>
      rw [request] at silent
      cases silent
    | _ => rw [request] at asked; cases asked
  updated := by
    intro id message_id form message asked
    rw [asked] at silent
    cases silent
  deleted := by
    intro id message_id asked
    rw [asked] at silent
    cases silent

theorem keeping_of_other (posts : event.request.post? = none)
    (updates : ∀ id message_id form, event.request ≠ .update_message_by_id id message_id form)
    (deletes : ∀ id message_id, event.request ≠ .delete_message_by_id id message_id) :
    Keeping tables event where
  posted := by
    intro id form asked
    rw [posts] at asked
    cases asked
  updated := fun id message_id form _ asked => absurd asked (updates id message_id form)
  deleted := fun id message_id asked => absurd asked (deletes id message_id)

theorem headed_set_iff (headed : Headed tables) (sound : Sound tables) {uuid : String}
    (new : Unused tables uuid) {row : Message}
    (messages : after.message = tables.message.set uuid row)
    (parent : ∀ parent_id, row.parent_id = some parent_id → parent_id ≠ "" →
      ∃ head, tables.message.get? parent_id = some head) :
    Headed after ↔ row.parent_id ≠ some "" ∧ MetaReadable row.message_meta := by
  have here : after.message.get? uuid = some row := by
    rw [messages, Dict.get?_set, if_pos rfl]
  constructor
  · intro headed'
    refine ⟨?_, headed'.readable uuid row here⟩
    intro empty
    obtain ⟨head, there⟩ := headed'.headed uuid row "" here empty
    rw [messages, Dict.get?_set, if_neg new.filled] at there
    exact sound.filled (Dict.mem_keys_of_get? there)
  · rintro ⟨filled, readable⟩
    have stays : ∀ id, (∃ head, tables.message.get? id = some head) →
        ∃ head, after.message.get? id = some head := by
      rintro id ⟨head, there⟩
      have apart : uuid ≠ id := by
        rintro rfl
        exact new.message (Dict.mem_keys_of_get? there)
      exact ⟨head, by rw [messages, Dict.get?_set, if_neg apart, there]⟩
    constructor
    · intro id message stored
      rw [messages, Dict.get?_set] at stored
      split at stored
      · obtain rfl := Option.some.inj stored
        exact readable
      · exact headed.readable id message stored
    · intro id message parent_id stored names
      rw [messages, Dict.get?_set] at stored
      refine stays parent_id ?_
      split at stored
      · obtain rfl := Option.some.inj stored
        refine parent parent_id names ?_
        rintro rfl
        exact filled names
      · exact headed.headed id message parent_id stored names

theorem headed_modify_iff (headed : Headed tables) {id : String} {message : Message}
    (found : tables.message.get? id = some message) {change : Message → Message}
    (place : ∀ message, SamePlace message (change message))
    (messages : after.message = tables.message.modify id change) :
    Headed after ↔ MetaReadable (change message).message_meta := by
  have here : after.message.get? id = some (change message) := by
    rw [messages, Dict.get?_modify, if_pos rfl, found, Option.map_some]
  constructor
  · intro headed'
    exact headed'.readable id _ here
  · intro readable
    constructor
    · intro other row stored
      by_cases same : id = other
      · subst same
        obtain rfl := Option.some.inj (here.symm.trans stored)
        exact readable
      · rw [messages, Dict.get?_modify, if_neg same] at stored
        exact headed.readable other row stored
    · intro other row parent_id stored names
      have old : ∃ old, tables.message.get? other = some old ∧ old.parent_id = row.parent_id := by
        rw [messages] at stored
        rcases Dict.get?_modify_cases stored with ⟨_, old, was, rfl⟩ | ⟨_, kept⟩
        · exact ⟨old, was, (place old).parent.symm⟩
        · exact ⟨row, kept, rfl⟩
      obtain ⟨old, was, same⟩ := old
      obtain ⟨head, there⟩ := headed.headed other old parent_id was (same.trans names)
      rw [messages, Dict.get?_modify, there]
      split
      · exact ⟨_, rfl⟩
      · exact ⟨_, rfl⟩

theorem headed_erase_iff (headed : Headed tables) {id : String}
    (messages : after.message = tables.message.erase id) :
    Headed after ↔ ∀ reply message, tables.message.get? reply = some message → reply ≠ id →
      message.parent_id ≠ some id := by
  constructor
  · intro headed' reply message stored apart parent
    have stays : after.message.get? reply = some message := by
      rw [messages, Dict.get?_erase, if_neg apart.symm, stored]
    obtain ⟨head, there⟩ := headed'.headed reply message id stays parent
    rw [messages, Dict.get?_erase, if_pos rfl] at there
    cases there
  · intro alone
    have stored : ∀ {other row}, after.message.get? other = some row →
        id ≠ other ∧ tables.message.get? other = some row := by
      intro other row there
      rw [messages, Dict.get?_erase] at there
      split at there
      · cases there
      · exact ⟨‹_›, there⟩
    constructor
    · intro other row there
      exact headed.readable other row (stored there).2
    · intro other row parent_id there parent
      obtain ⟨apart, was⟩ := stored there
      obtain ⟨head, found⟩ := headed.headed other row parent_id was parent
      have kept : id ≠ parent_id := by
        rintro rfl
        exact alone other row was apart.symm parent
      exact ⟨head, by rw [messages, Dict.get?_erase, if_neg kept, found]⟩

theorem headed_step_iff (sound : Sound tables) (headed : Headed tables)
    (stepped : step tables event = some after) :
    Headed after ↔ (Accepts tables event → Keeping tables event) := by
  refine holds_step_iff stepped headed (fun outcome new done => ?_)
  cases messages_cases (accepted_of_answered done) with
  | same silent messages =>
    refine iff_of_true ⟨?_, ?_⟩ (keeping_of_silent silent)
    · rw [messages]
      exact headed.readable
    · rw [messages]
      exact headed.headed
  | posted id form asked parent reply messages =>
    rw [headed_set_iff headed sound new messages (fun parent_id names filled => by
      obtain ⟨head, there, _⟩ := checkReference_ok parent (given_eq_some.mpr ⟨names, filled⟩)
      exact ⟨head, there⟩)]
    constructor
    · intro readable
      refine ⟨fun id' form' asked' => ?_, fun _ _ _ _ asked' => ?_, fun _ _ asked' => ?_⟩
      · obtain ⟨rfl, rfl⟩ := Prod.mk.inj (Option.some.inj (asked.symm.trans asked'))
        exact readable
      · rw [asked'] at asked
        cases asked
      · rw [asked'] at asked
        cases asked
    · intro keeping
      exact keeping.posted id form asked
  | webhookPosted webhook_id token content webhook asked known messages =>
    rw [headed_set_iff headed sound new messages (fun parent_id names => by cases names)]
    refine iff_of_true ⟨by simp [messageOf, webhookForm], ?_⟩ (keeping_of_other ?_ ?_ ?_)
    · exact ⟨given (some webhook_id), rfl⟩
    · rw [asked]
      rfl
    · rw [asked]
      intro _ _ _ same
      cases same
    · rw [asked]
      intro _ _ same
      cases same
  | updated id message_id form message asked found inside messages =>
    rw [headed_modify_iff headed found (samePlace_updated _ _ _ _) messages]
    constructor
    · intro readable
      refine ⟨fun _ _ asked' => ?_, fun id' message_id' form' message' asked' found' => ?_,
        fun _ _ asked' => ?_⟩
      · rw [asked] at asked'
        cases asked'
      · obtain ⟨rfl, rfl, rfl⟩ := Request.update_message_by_id.inj (asked.symm.trans asked')
        obtain rfl := Option.some.inj (found.symm.trans found')
        exact readable
      · cases asked.symm.trans asked'
    · intro keeping
      exact keeping.updated id message_id form message asked found
  | emitted id message_id content finished output message asked found inside messages =>
    rw [headed_modify_iff headed found (samePlace_updated _ _ _ _) messages]
    refine iff_of_true ?_ (keeping_of_other ?_ ?_ ?_)
    · obtain ⟨webhook_id, info⟩ := headed.readable message_id message found
      refine ⟨webhook_id, ?_⟩
      rw [← info]
      exact webhookInfo_congr (getField_doneMeta finished message.message_meta (by decide))
    · rw [asked]
      rfl
    · rw [asked]
      intro _ _ _ same
      cases same
    · rw [asked]
      intro _ _ same
      cases same
  | pinned id message_id is_pinned message asked found inside messages =>
    rw [headed_modify_iff headed found (samePlace_pinned _ _ _) messages]
    refine iff_of_true (headed.readable message_id message found) (keeping_of_other ?_ ?_ ?_)
    · rw [asked]
      rfl
    · rw [asked]
      intro _ _ _ same
      cases same
    · rw [asked]
      intro _ _ same
      cases same
  | deleted id message_id message asked found inside messages =>
    rw [headed_erase_iff headed messages]
    obtain ⟨rank, ordered⟩ := sound.ordered
    constructor
    · intro alone
      refine ⟨fun _ _ asked' => ?_, fun _ _ _ _ asked' => ?_,
        fun id' message_id' asked' reply row stored parent => ?_⟩
      · rw [asked] at asked'
        cases asked'
      · cases asked.symm.trans asked'
      · obtain ⟨rfl, rfl⟩ := Request.delete_message_by_id.inj (asked.symm.trans asked')
        have lower := ordered reply row message_id stored (Or.inl parent)
        refine alone reply row stored ?_ parent
        rintro rfl
        exact Nat.lt_irrefl _ lower
    · intro keeping reply row stored _
      exact keeping.deleted id message_id asked reply row stored

end Step

/-- Nothing is lost in any state of a run, exactly when every accepted request of it is a keeping
one. -/
theorem nothing_lost_iff {start final : Tables} {run : List Event} (sound : Sound start)
    (nothing : NothingLost start) (ran : run.foldlM step start = some final) :
    Runs.Throughout NothingLost step start run ↔ Runs.Always (fun earlier event =>
      ∀ tables, earlier.foldlM step start = some tables →
        Accepts tables event → Keeping tables event) run := by
  refine @Runs.throughout_iff_of_invariant _ _ _
    (fun tables event => Accepts tables event → Keeping tables event) _ Sound
    (fun _ _ _ sound stepped => sound_step sound stepped) ?_ _ _ _ sound nothing ran
  intro old event new sound nothing stepped
  rw [nothingLost_iff (sound_step sound stepped)]
  exact headed_step_iff sound ((nothingLost_iff sound).mp nothing) stepped

theorem headed_of_none {tables : Tables} (none : tables.message = Dict.empty) : Headed tables where
  readable := by
    intro id message stored
    rw [none] at stored
    cases stored
  headed := by
    intro id message parent_id stored
    rw [none] at stored
    cases stored

def threadRun : List Event :=
  [byAdmin "ann" "c" (.create_new_channel ⟨some "group", none, none, some ["bob"]⟩),
    byAdmin "ann" "m" (.post_new_message "c" ⟨"Lunch?", none, none, none, none⟩),
    byAdmin "bob" "r" (.post_new_message "c" ⟨"Yes", none, some "m", none, none⟩),
    byAdmin "bob" "x" (.delete_message_by_id "c" "r")]

theorem deleted_reply_leaves_thread : Runs.Throughout NothingLost step noChannels threadRun := by
  obtain ⟨final, ran⟩ := Option.isSome_iff_exists.mp
    (by decide +kernel : (threadRun.foldlM step noChannels).isSome = true)
  have sound : Sound noChannels := sound_of_none rfl
  refine (nothing_lost_iff sound ((nothingLost_iff sound).mpr (headed_of_none rfl)) ran).mpr ?_
  unfold threadRun
  rw [Runs.always_cons, Runs.always_cons, Runs.always_cons, Runs.always_cons]
  refine ⟨?_, ?_, ?_, ?_, Runs.always_nil _⟩
  · intro tables _ _
    exact keeping_of_silent rfl
  · intro tables _ _
    refine ⟨fun id form asked => ?_, fun _ _ _ _ asked => ?_, fun _ _ asked => ?_⟩
    · obtain ⟨rfl, rfl⟩ := Prod.mk.inj (Option.some.inj asked)
      exact ⟨by decide, none, rfl⟩
    · cases asked
    · cases asked
  · intro tables _ _
    refine ⟨fun id form asked => ?_, fun _ _ _ _ asked => ?_, fun _ _ asked => ?_⟩
    · obtain ⟨rfl, rfl⟩ := Prod.mk.inj (Option.some.inj asked)
      exact ⟨by decide, none, rfl⟩
    · cases asked
    · cases asked
  · intro tables reached _
    refine ⟨fun id form asked => ?_, fun _ _ _ _ asked => ?_, fun id message_id asked => ?_⟩
    · cases asked
    · cases asked
    · obtain ⟨rfl, rfl⟩ := Request.delete_message_by_id.inj asked
      have alone : (((threadRun.take 3).foldlM step noChannels).all (fun tables =>
          tables.message.entries.all (fun row => decide (row.2.parent_id ≠ some "r")))) = true := by
        decide +kernel
      have here : (threadRun.take 3).foldlM step noChannels = some tables := reached
      rw [here, Option.all_some] at alone
      intro reply message stored
      exact of_decide_eq_true (List.all_eq_true.mp alone (reply, message)
        (Dict.mem_entries_iff.mpr stored))

def headRun : List Event :=
  [byAdmin "ann" "c" (.create_new_channel ⟨some "group", none, none, some ["bob"]⟩),
    byAdmin "ann" "m" (.post_new_message "c" ⟨"Lunch?", none, none, none, none⟩),
    byAdmin "bob" "r" (.post_new_message "c" ⟨"Yes", none, some "m", none, none⟩),
    byAdmin "ann" "x" (.delete_message_by_id "c" "m")]

theorem deleted_head_loses_replies :
    ¬ ∀ (start final : Tables) (run : List Event), Sound start → NothingLost start →
      run.foldlM step start = some final → Runs.Throughout NothingLost step start run := by
  intro always
  obtain ⟨final, ran⟩ := Option.isSome_iff_exists.mp
    (by decide +kernel : (headRun.foldlM step noChannels).isSome = true)
  have sound : Sound noChannels := sound_of_none rfl
  have nothing : NothingLost final := always noChannels final headRun sound
    ((nothingLost_iff sound).mpr (headed_of_none rfl)) ran headRun [] (List.append_nil _).symm
      final ran
  have left : ((headRun.foldlM step noChannels).all (fun tables =>
      (tables.message.get? "r").any (fun message => decide (message.channel_id = some "c") &&
        decide (message.parent_id = some "m")) && (tables.message.get? "m").isNone)) = true := by
    decide +kernel
  rw [ran, Option.all_some, Bool.and_eq_true] at left
  obtain ⟨message, stored, place⟩ := (Option.any_eq_true _ _).mp left.1
  rw [Bool.and_eq_true, decide_eq_true_eq, decide_eq_true_eq] at place
  obtain ⟨message', stored', _, _, headed⟩ :=
    reachable_some (nothing.reached "r" message "c" stored place.1)
  obtain rfl := Option.some.inj (stored.symm.trans stored')
  obtain ⟨head, there⟩ := headed "m" place.2
  rw [there] at left
  cases left.2

end OpenWebui.Channels
