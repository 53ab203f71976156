import OpenWebui.Channels.References
import OpenWebui.Channels.Requests

/-! What those who read a channel are answered. -/

namespace OpenWebui.Channels

section Readings

variable (tables : Tables) (event : Event)

def checkRead (id : String) : Except HTTPException Unit := do
  check_channels_access event
  let channel ← findChannel tables id
  checkUse tables event.caller id channel "read" true

def listedMessage (found : MessageReplyToResponse) : MessageResponse where
  shown := slim found.shown
  reply_to_message := found.reply_to_message
  latest_reply_at := (get_thread_reply_count tables found.shown.id).2
  reply_count := (get_thread_reply_count tables found.shown.id).1
  reactions := get_reactions_by_message_id tables found.shown.id

def get_channel_messages (id : String) (skip limit : Nat) :
    Except HTTPException (List MessageResponse) := do
  check_channels_access event
  let opened ← openChannel event.fresh tables event.caller id
  let message_list ← raised (get_messages_by_channel_id opened.tables id skip limit)
  .ok (message_list.map (listedMessage opened.tables))

/-- `value or default`, where a text is needed. -/
def textOr (value : Json) (default : String) : Except PyError String :=
  match value with
  | .str text => .ok (if text = "" then default else text)
  | other => if other.truthy then .error .valueError else .ok default

def pinnedSender (message : Message) : Except PyError (Option Sender) :=
  match getField (message.message_meta.getD []) "webhook" with
  | .obj [] => .ok (userSender tables message.user_id)
  | .obj webhook_info => do
    let id ← textOr (getField webhook_info "id") ""
    let name ← textOr (getField webhook_info "name") "Webhook"
    .ok (some (.webhook id name))
  | other =>
    if other.truthy then .error .attributeError else .ok (userSender tables message.user_id)

def pinnedMessage (row : String × Message) : Except PyError MessageWithReactionsResponse :=
  (pinnedSender tables row.2).map (fun user =>
    ⟨slim ⟨row.1, row.2, none, user⟩, get_reactions_by_message_id tables row.1⟩)

def PAGE_ITEM_COUNT_PINNED : Nat := 20

def get_pinned_channel_messages (id : String) (page : Int) :
    Except HTTPException (List MessageWithReactionsResponse) := do
  checkRead tables event id
  let skip := (max 1 page - 1).toNat * PAGE_ITEM_COUNT_PINNED
  raised ((get_pinned_messages_by_channel_id tables id skip PAGE_ITEM_COUNT_PINNED).mapM
    (pinnedMessage tables))

def threadMessage (found : MessageReplyToResponse) : MessageResponse where
  shown := slim found.shown
  reply_to_message := found.reply_to_message
  latest_reply_at := none
  reply_count := 0
  reactions := get_reactions_by_message_id tables found.shown.id

def get_channel_thread_messages (id message_id : String) (skip limit : Nat) :
    Except HTTPException (List MessageResponse) := do
  checkRead tables event id
  let message_list ← raised (get_messages_by_parent_id tables id message_id skip limit)
  .ok (message_list.map (threadMessage tables))

def get_channel_message (id message_id : String) : Except HTTPException MessageResponse := do
  checkRead tables event id
  let message ← findMessage tables id message_id
  .ok { message with
    shown := { message.shown with user := userSender tables message.shown.message.user_id } }

def get_channel_message_data (id message_id : String) : Except HTTPException (Option Fields) := do
  checkRead tables event id
  let message ← findMessage tables id message_id
  .ok message.shown.message.data

end Readings

/-- A message of the channel is shown. -/
def Shown.Inside (shown : Shown) (channel_id : String) : Prop :=
  shown.message.channel_id = some channel_id

/-- A message of the channel is shown, and what it quotes is one too. -/
structure MessageResponse.Inside (message : MessageResponse) (channel_id : String) : Prop where
  shown : message.shown.Inside channel_id
  quoted : ∀ quoted, message.reply_to_message = some quoted → quoted.Inside channel_id

/-- The states that requests reach from one without messages. -/
def Reached (tables : Tables) : Prop :=
  ∃ (start : Tables) (run : List Event), start.message = Dict.empty ∧
    run.foldlM step start = some tables

/-- Whatever is read in a channel or sent to it is a message of the channel. -/
structure Confined (tables : Tables) : Prop where
  references : ∀ id message other found, tables.message.get? id = some message →
    message.Refers other → tables.message.get? other = some found →
      found.channel_id = message.channel_id
  listed : ∀ event id skip limit messages,
    get_channel_messages tables event id skip limit = .ok messages →
      ∀ message ∈ messages, message.Inside id
  pinned : ∀ event id page messages,
    get_pinned_channel_messages tables event id page = .ok messages →
      ∀ message ∈ messages, message.shown.Inside id
  thread : ∀ event id message_id skip limit messages,
    get_channel_thread_messages tables event id message_id skip limit = .ok messages →
      ∀ message ∈ messages, message.Inside id
  single : ∀ event id message_id message,
    get_channel_message tables event id message_id = .ok message → message.Inside id
  data : ∀ event id message_id data,
    get_channel_message_data tables event id message_id = .ok data →
      ∃ message, tables.message.get? message_id = some message ∧
        message.channel_id = some id ∧ message.data = data
  emitted : ∀ event, unused tables event.fresh.uuid = true →
    ∀ emission ∈ (handle tables event).emitted, emission.message.Inside emission.channel_id

theorem sound_of_reached {tables : Tables} (reached : Reached tables) : Sound tables := by
  obtain ⟨start, run, empty, ran⟩ := reached
  have starts : Sound start := sound_of_none empty
  clear empty
  induction run generalizing start with
  | nil =>
    obtain rfl := Option.some.inj ran
    exact starts
  | cons event rest ih =>
    rw [List.foldlM_cons, Option.bind_eq_bind, Option.bind_eq_some_iff] at ran
    obtain ⟨next, stepped, ran⟩ := ran
    exact ih next ran (sound_step starts stepped)

section Inside

variable {tables : Tables}

theorem response_inside (sound : Sound tables) {id channel_id : String} {message : Message}
    {found : MessageReplyToResponse} (stored : tables.message.get? id = some message)
    (inside : message.channel_id = some channel_id)
    (done : response tables (read tables) (id, message) = .ok found) :
    found.shown.id = id ∧ found.shown.message = message ∧
      ∀ quoted, found.reply_to_message = some quoted → quoted.Inside channel_id := by
  cases named : given message.reply_to_id with
  | none =>
    rw [response_none named] at done
    obtain ⟨user, _, rfl⟩ := map_eq_ok.mp done
    exact ⟨rfl, rfl, fun quoted none => by cases none⟩
  | some other =>
    rw [response_some named] at done
    obtain ⟨answer, reads, done⟩ := bind_eq_ok.mp done
    obtain ⟨user, _, rfl⟩ := map_eq_ok.mp done
    refine ⟨rfl, rfl, ?_⟩
    intro quoted same
    obtain ⟨target, rfl, rfl⟩ := Option.map_eq_some_iff.mp same
    obtain ⟨there, _⟩ := get_message_some reads
    change target.shown.message.channel_id = some channel_id
    rw [← inside]
    exact sound.inside id message other _ stored (Or.inr (given_eq_some.mp named).1) there

theorem get_message_by_id_inside (sound : Sound tables) {id channel_id : String}
    {message : MessageResponse} (reads : get_message_by_id tables id = .ok (some message))
    (inside : ∀ row, tables.message.get? id = some row → row.channel_id = some channel_id) :
    message.Inside channel_id ∧ tables.message.get? id = some message.shown.message := by
  obtain ⟨found, reading, shown, reply, _⟩ := get_message_by_id_some reads
  have stored := (get_message_some reading).1
  rw [read_eq sound, stored] at reading
  obtain ⟨answer, done, same⟩ := map_eq_ok.mp reading
  obtain rfl := Option.some.inj same
  obtain ⟨_, _, quoted⟩ := response_inside sound stored (inside _ stored) done
  refine ⟨⟨?_, ?_⟩, ?_⟩
  · unfold Shown.Inside
    rw [shown]
    exact inside _ stored
  · rw [reply]
    exact quoted
  · rw [shown]
    exact stored

theorem findMessage_inside (sound : Sound tables) {id message_id : String}
    {message : MessageResponse} (named : findMessage tables id message_id = .ok message) :
    message.Inside id := by
  obtain ⟨stored, inside⟩ := findMessage_ok named
  obtain ⟨answer, reads, named⟩ := bind_eq_ok.mp named
  cases answer with
  | none => cases named
  | some found =>
    dsimp only at named
    split at named
    · obtain rfl := Except.ok.inj named
      refine (get_message_by_id_inside sound (raised_ok reads) (fun row there => ?_)).1
      obtain rfl := Option.some.inj (stored.symm.trans there)
      exact inside
    · cases named

theorem readAll_inside (sound : Sound tables) {channel_id : String}
    {rows : List (String × Message)} {listing : List MessageReplyToResponse}
    (inside : ∀ row ∈ rows, tables.message.get? row.1 = some row.2 ∧
      row.2.channel_id = some channel_id)
    (done : readAll tables rows = .ok listing) {found : MessageReplyToResponse}
    (member : found ∈ listing) :
    tables.message.get? found.shown.id = some found.shown.message ∧
      found.shown.Inside channel_id ∧
        ∀ quoted, found.reply_to_message = some quoted → quoted.Inside channel_id := by
  obtain ⟨row, shown, answer⟩ := readAll_mem done member
  obtain ⟨stored, here⟩ := inside row shown
  obtain ⟨id, message, quoted⟩ := response_inside sound stored here answer
  refine ⟨?_, ?_, quoted⟩
  · rw [id, message]
    exact stored
  · unfold Shown.Inside
    rw [message]
    exact here

end Inside

section Emissions

variable {tables : Tables} {event : Event} {outcome : Outcome}

theorem announce_inside (sound : Sound tables) {id message_id : String}
    {sent : MessageResponse → MessageResponse}
    (inside : ∀ row, tables.message.get? message_id = some row → row.channel_id = some id)
    (kept : ∀ message : MessageResponse, message.Inside id → (sent message).Inside id) :
    ∀ emission ∈ (announce tables id message_id sent).emitted,
      emission.message.Inside emission.channel_id := by
  unfold announce
  split
  · rename_i message reads
    intro emission member
    obtain rfl := List.mem_singleton.mp member
    exact kept message (get_message_by_id_inside sound reads inside).1
  · intro emission member
    cases member
  · intro emission member
    cases member

theorem withParent_inside {before : Outcome} (sound : Sound before.tables) {id : String}
    {parent_id : Option String}
    (inside : ∀ other row, parent_id = some other → before.tables.message.get? other = some row →
      row.channel_id = some id)
    (first : ∀ emission ∈ before.emitted, emission.message.Inside emission.channel_id) :
    ∀ emission ∈ (withParent before id parent_id).emitted,
      emission.message.Inside emission.channel_id := by
  unfold withParent
  split
  · exact first
  · rename_i other named
    intro emission member
    rcases List.mem_append.mp member with early | parent
    · exact first emission early
    · exact announce_inside sound (fun row there =>
        inside other row (given_eq_some.mp named).1 there) (fun _ here => here) emission parent

theorem posted_inside {id : String} {channel : Channel} {form : MessageForm}
    (sound : Sound (postedTables event.fresh tables event.caller id channel form)) :
    ∀ emission ∈ (posted event.fresh tables event.caller id channel form).emitted,
      emission.message.Inside emission.channel_id := by
  have stored : (postedTables event.fresh tables event.caller id channel form).message.get?
      event.fresh.uuid = some (messageOf event.fresh form id event.caller.id) := by
    rw [(postedTables_frame _ _ _ _ _).2.2.2.2, insert_new_message_message, Dict.get?_set,
      if_pos rfl]
  have inside : ∀ row, (postedTables event.fresh tables event.caller id channel form).message.get?
      event.fresh.uuid = some row → row.channel_id = some id := by
    intro row there
    obtain rfl := Option.some.inj (stored.symm.trans there)
    rfl
  unfold posted
  dsimp only
  split
  · rename_i message reads
    obtain ⟨here, same⟩ := get_message_by_id_inside sound reads inside
    refine withParent_inside sound ?_ ?_
    · intro other row named there
      rw [sound.inside _ _ other row same (Or.inl named) there]
      exact inside _ same
    · intro emission member
      obtain rfl := List.mem_singleton.mp member
      exact here
  · intro emission member
    cases member

theorem openDm_emitted (fresh : Fresh) (caller : Caller) (user_ids : List String)
    (form : CreateChannelForm) : (openDm fresh tables caller user_ids form).emitted = [] := by
  unfold openDm
  split <;> rfl

theorem emitted_inside (sound : Sound tables) (sound' : Sound outcome.tables)
    (accepted : Accepted tables event outcome) :
    ∀ emission ∈ outcome.emitted, emission.message.Inside emission.channel_id := by
  have silent : ∀ {emissions : List Emission}, emissions = [] →
      ∀ emission ∈ emissions, emission.message.Inside emission.channel_id := by
    rintro _ rfl emission member
    cases member
  -- A message that is changed stays in its channel.
  have changed : ∀ {id message_id : String} {message : MessageResponse} {change : Message → Message},
      findMessage tables id message_id = .ok message →
        (∀ message, SamePlace message (change message)) →
          ∀ row, (tables.message.modify message_id change).get? message_id = some row →
            row.channel_id = some id := by
    intro id message_id message change named place row there
    obtain ⟨stored, inside⟩ := findMessage_ok named
    rw [Dict.get?_modify, if_pos rfl, stored, Option.map_some] at there
    obtain rfl := Option.some.inj there
    rw [(place _).channel]
    exact inside
  cases accepted with
  | reading asked => exact silent rfl
  | dmOpened user_id asked => exact silent (openDm_emitted _ _ _ _)
  | dmCreated form user_ids access_grants asked type named => exact silent (openDm_emitted _ _ _ _)
  | created form access_grants asked type => exact silent rfl
  | activated id is_active asked member => exact silent rfl
  | added id user_ids group_ids channel asked found => exact silent rfl
  | removed id user_ids channel asked found => exact silent rfl
  | granted id asking access_grants channel asked allowed found => exact silent rfl
  | channelDeleted id channel asked found => exact silent rfl
  | listed id channel asked found => exact silent rfl
  | posted id form channel asked found use parent reply =>
    rw [posted_tables] at sound'
    exact posted_inside sound'
  | emitted id message_id content finished output message asked named =>
    rw [announce_tables] at sound'
    exact announce_inside sound' (changed named (samePlace_updated _ _ _ _)) (fun _ here => here)
  | pinned id message_id is_pinned channel message asked found named =>
    rw [announce_tables] at sound'
    exact announce_inside sound' (changed named (samePlace_pinned _ _ _))
      (fun _ here => ⟨here.shown, here.quoted⟩)
  | updated id message_id form channel message asked found named =>
    rw [announce_tables] at sound'
    exact announce_inside sound' (changed named (samePlace_updated _ _ _ _)) (fun _ here => here)
  | reacted id message_id name channel message asked found named =>
    rw [announce_tables] at sound'
    refine announce_inside sound' (fun row there => ?_) (fun _ here => here)
    have messages : (add_reaction_to_message tables message_id event.caller.id name).message =
        tables.message := by
      unfold add_reaction_to_message
      split <;> rfl
    rw [messages, (findMessage_ok named).1] at there
    obtain rfl := Option.some.inj there
    exact (findMessage_ok named).2
  | unreacted id message_id name channel message asked found named =>
    rw [announce_tables] at sound'
    refine announce_inside sound' (fun row there => ?_) (fun _ here => here)
    obtain rfl := Option.some.inj ((findMessage_ok named).1.symm.trans there)
    exact (findMessage_ok named).2
  | deleted id message_id channel message asked found named =>
    rw [withParent_tables] at sound'
    obtain ⟨stored, inside⟩ := findMessage_ok named
    refine withParent_inside sound' ?_ ?_
    · intro other row parent there
      have was : tables.message.get? other = some row := by
        change (tables.message.erase message_id).get? other = some row at there
        rw [Dict.get?_erase] at there
        split at there
        · cases there
        · exact there
      rw [sound.inside message_id _ other row stored (Or.inl parent) was]
      exact inside
    · intro emission member
      obtain rfl := List.mem_singleton.mp member
      exact findMessage_inside sound named
  | webhookMade id name channel asked found => exact silent rfl
  | webhookRenamed id webhook_id name asked => exact silent rfl
  | webhookRemoved id webhook_id asked => exact silent rfl
  | webhookPosted webhook_id token content webhook channel asked enabled known found =>
    rw [announce_tables] at sound'
    refine announce_inside sound' (fun row there => ?_) (fun _ here => ⟨here.shown, here.quoted⟩)
    rw [insert_new_message_message, Dict.get?_set, if_pos rfl] at there
    obtain rfl := Option.some.inj there
    rfl
  | lastRead channel_id asked => exact silent rfl

end Emissions

section Answers

variable {tables : Tables} {event : Event}

theorem openChannel_ok {id : String} {outcome : Outcome}
    (done : openChannel event.fresh tables event.caller id = .ok outcome) :
    outcome.tables.message = tables.message := by
  obtain ⟨channel, _, done⟩ := bind_eq_ok.mp done
  obtain ⟨_, _, done⟩ := bind_eq_ok.mp done
  obtain rfl := Except.ok.inj done
  rw [quiet_tables]
  split
  · rfl
  · exact (join_channel_frame _ _ _).2.1

theorem sound_of_messages (sound : Sound tables) {after : Tables}
    (messages : after.message = tables.message) : Sound after := by
  refine sound_of_kept sound ?_
  intro id message found
  rw [messages] at found
  exact ⟨message, found, rfl, rfl, rfl⟩

theorem topLevel_page_inside {channel_id : String} {skip limit : Nat} {row : String × Message}
    (member : row ∈ page skip limit (newestFirst (topLevel tables channel_id))) :
    tables.message.get? row.1 = some row.2 ∧ row.2.channel_id = some channel_id := by
  obtain ⟨stored, inside, _⟩ := mem_topLevel.mp (mem_newestFirst.mp (mem_of_mem_page member))
  exact ⟨stored, inside⟩

theorem threadPage_inside {channel_id parent_id : String} {parent : Message} {skip limit : Nat}
    (found : (tables.message.get? parent_id).filter (fun message =>
      decide (message.channel_id = some channel_id)) = some parent) {row : String × Message}
    (member : row ∈ threadPage tables channel_id (parent_id, parent) skip limit) :
    tables.message.get? row.1 = some row.2 ∧ row.2.channel_id = some channel_id := by
  have replies : ∀ {row : String × Message}, row ∈ page skip limit
      (newestFirst (threadOf tables channel_id parent_id)) →
        tables.message.get? row.1 = some row.2 ∧ row.2.channel_id = some channel_id := by
    intro row reply
    obtain ⟨stored, inside, _⟩ := mem_threadOf.mp (mem_newestFirst.mp (mem_of_mem_page reply))
    exact ⟨stored, inside⟩
  unfold threadPage at member
  dsimp only at member
  split at member
  · rcases List.mem_append.mp member with reply | last
    · exact replies reply
    · obtain rfl := List.mem_singleton.mp last
      obtain ⟨stored, inside⟩ := Option.filter_eq_some_iff.mp found
      exact ⟨stored, of_decide_eq_true inside⟩
  · exact replies member

theorem mem_pinned {channel_id : String} {skip limit : Nat} {row : String × Message}
    (member : row ∈ get_pinned_messages_by_channel_id tables channel_id skip limit) :
    tables.message.get? row.1 = some row.2 ∧ row.2.channel_id = some channel_id := by
  have stored := List.mem_filter.mp (List.mem_mergeSort.mp (mem_of_mem_page member))
  rw [Bool.and_eq_true, decide_eq_true_eq] at stored
  exact ⟨Dict.mem_entries_iff.mp stored.1, stored.2.1⟩

theorem confined_of_sound (sound : Sound tables) : Confined tables where
  references := sound.inside
  listed := by
    intro event id skip limit messages done message member
    obtain ⟨_, _, done⟩ := bind_eq_ok.mp done
    obtain ⟨opened, opens, done⟩ := bind_eq_ok.mp done
    obtain ⟨listing, lists, done⟩ := bind_eq_ok.mp done
    obtain rfl := Except.ok.inj done
    obtain ⟨found, shown, rfl⟩ := List.mem_map.mp member
    have sound' := sound_of_messages sound (openChannel_ok opens)
    obtain ⟨_, here, quoted⟩ := readAll_inside sound'
      (fun row there => topLevel_page_inside there) (raised_ok lists) shown
    exact ⟨here, quoted⟩
  pinned := by
    intro event id page messages done message member
    obtain ⟨_, _, done⟩ := bind_eq_ok.mp done
    have answered : Except.ok message ∈ (get_pinned_messages_by_channel_id tables id
        ((max 1 page - 1).toNat * PAGE_ITEM_COUNT_PINNED) PAGE_ITEM_COUNT_PINNED).map
          (pinnedMessage tables) := by
      rw [map_of_mapM (raised_ok done)]
      exact List.mem_map_of_mem member
    obtain ⟨row, there, answer⟩ := List.mem_map.mp answered
    obtain ⟨user, _, rfl⟩ := map_eq_ok.mp answer
    exact (mem_pinned there).2
  thread := by
    intro event id message_id skip limit messages done message member
    obtain ⟨_, _, done⟩ := bind_eq_ok.mp done
    obtain ⟨listing, lists, done⟩ := bind_eq_ok.mp done
    obtain rfl := Except.ok.inj done
    obtain ⟨found, shown, rfl⟩ := List.mem_map.mp member
    replace lists := raised_ok lists
    unfold get_messages_by_parent_id at lists
    split at lists
    · obtain rfl := Except.ok.inj lists
      cases shown
    · rename_i parent stored
      obtain ⟨_, here, quoted⟩ := readAll_inside sound
        (fun row there => threadPage_inside stored there) lists shown
      exact ⟨here, quoted⟩
  single := by
    intro event id message_id message done
    obtain ⟨_, _, done⟩ := bind_eq_ok.mp done
    obtain ⟨found, named, done⟩ := bind_eq_ok.mp done
    obtain rfl := Except.ok.inj done
    have here := findMessage_inside sound named
    exact ⟨here.shown, here.quoted⟩
  data := by
    intro event id message_id data done
    obtain ⟨_, _, done⟩ := bind_eq_ok.mp done
    obtain ⟨found, named, done⟩ := bind_eq_ok.mp done
    obtain ⟨stored, inside⟩ := findMessage_ok named
    exact ⟨found.shown.message, stored, inside, Except.ok.inj done⟩
  emitted := by
    intro event new
    rcases handle_cases tables event with ⟨_, nothing, _⟩ | accepted
    · intro emission member
      rw [nothing] at member
      cases member
    · have stepped : step tables event = some (handle tables event).tables :=
        step_eq_some.mpr ⟨unused_iff.mp new, rfl⟩
      exact emitted_inside sound (sound_step sound stepped) accepted

end Answers

end OpenWebui.Channels
