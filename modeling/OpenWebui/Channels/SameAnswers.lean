import OpenWebui.Channels.Confined

/-! The readers of a channel are answered alike in two states that differ in other channels only. -/

namespace OpenWebui.Channels

open AccessGrants (AccessGrant)

def grantElsewhere (id : String) (grant : AccessGrant) : Bool :=
  decide (grant.resource_type = "channel") && decide (grant.resource_id ≠ id)

/-- The states differ in other channels only: in their rows, members, webhooks, messages, reactions
and grants. -/
structure SameIn (id : String) (tables other : Tables) : Prop where
  user : other.access.user = tables.access.user
  group : other.access.group = tables.access.group
  group_member : other.access.group_member = tables.access.group_member
  access_grant : other.access.access_grant.filter (fun grant => !grantElsewhere id grant) =
    tables.access.access_grant.filter (fun grant => !grantElsewhere id grant)
  channel : other.channel.get? id = tables.channel.get? id
  member : get_members_by_channel_id other id = get_members_by_channel_id tables id
  webhook : ∀ webhook_id webhook, webhook.channel_id = id →
    (other.webhook.get? webhook_id = some webhook ↔ tables.webhook.get? webhook_id = some webhook)
  message : other.message.entries.filter (fun row => decide (row.2.channel_id = some id)) =
    tables.message.entries.filter (fun row => decide (row.2.channel_id = some id))
  reaction : ∀ message_id message, tables.message.get? message_id = some message →
    message.channel_id = some id →
      other.reaction.filter (fun reaction => decide (reaction.message_id = message_id)) =
        tables.reaction.filter (fun reaction => decide (reaction.message_id = message_id))

/-- The states have the same webhooks under the ids that the messages of the channel name. -/
def NamedAlike (id : String) (tables other : Tables) : Prop :=
  ∀ message_id message webhook_id, tables.message.get? message_id = some message →
    message.channel_id = some id →
      webhookInfo message.message_meta = .ok (some webhook_id) →
        other.webhook.get? webhook_id = tables.webhook.get? webhook_id

/-- The id is that of a message of another channel. -/
def Foreign (id : String) (tables : Tables) (message_id : String) : Prop :=
  ∃ message, tables.message.get? message_id = some message ∧ message.channel_id ≠ some id

/-- The id is that of a message of another channel that can be read. -/
def ForeignRead (id : String) (tables : Tables) (message_id : String) : Prop :=
  ∃ message, get_message_by_id tables message_id = .ok (some message) ∧
    message.shown.message.channel_id ≠ some id

/-- The answers to the readers of a channel are the same. -/
structure SameAnswers (id : String) (tables other : Tables) : Prop where
  listed : ∀ event skip limit, get_channel_messages other event id skip limit =
    get_channel_messages tables event id skip limit
  pinned : ∀ event page, get_pinned_channel_messages other event id page =
    get_pinned_channel_messages tables event id page
  thread : ∀ event message_id skip limit,
    get_channel_thread_messages other event id message_id skip limit =
      get_channel_thread_messages tables event id message_id skip limit
  single : ∀ event message_id, (¬ Foreign id tables message_id ∧ ¬ Foreign id other message_id) ∨
    (ForeignRead id tables message_id ∧ ForeignRead id other message_id) →
      get_channel_message other event id message_id = get_channel_message tables event id message_id
  data : ∀ event message_id, (¬ Foreign id tables message_id ∧ ¬ Foreign id other message_id) ∨
    (ForeignRead id tables message_id ∧ ForeignRead id other message_id) →
      get_channel_message_data other event id message_id =
        get_channel_message_data tables event id message_id

/-- What the reading of the messages of a channel rests on. -/
structure ReadsAlike (id : String) (tables other : Tables) : Prop where
  user : other.access.user = tables.access.user
  message : other.message.entries.filter (fun row => decide (row.2.channel_id = some id)) =
    tables.message.entries.filter (fun row => decide (row.2.channel_id = some id))
  reaction : ∀ message_id message, tables.message.get? message_id = some message →
    message.channel_id = some id →
      other.reaction.filter (fun reaction => decide (reaction.message_id = message_id)) =
        tables.reaction.filter (fun reaction => decide (reaction.message_id = message_id))
  named : NamedAlike id tables other

theorem SameIn.readsAlike {id : String} {tables other : Tables} (same : SameIn id tables other)
    (named : NamedAlike id tables other) : ReadsAlike id tables other :=
  ⟨same.user, same.message, same.reaction, named⟩

section Reading

variable {id : String} {tables other : Tables} (alike : ReadsAlike id tables other)
include alike

theorem stored_alike (message_id : String) (message : Message) :
    (other.message.get? message_id = some message ∧ message.channel_id = some id) ↔
      tables.message.get? message_id = some message ∧ message.channel_id = some id := by
  have member : ∀ tables : Tables, (tables.message.get? message_id = some message ∧
      message.channel_id = some id) ↔ (message_id, message) ∈
        tables.message.entries.filter (fun row => decide (row.2.channel_id = some id)) := by
    intro tables
    rw [List.mem_filter, decide_eq_true_eq, Dict.mem_entries_iff]
  rw [member other, member tables, alike.message]

theorem filter_alike (keep : String × Message → Bool) :
    other.message.entries.filter (fun row => decide (row.2.channel_id = some id) && keep row) =
      tables.message.entries.filter (fun row =>
        decide (row.2.channel_id = some id) && keep row) := by
  have split : ∀ rows : List (String × Message),
      rows.filter (fun row => decide (row.2.channel_id = some id) && keep row) =
        (rows.filter (fun row => decide (row.2.channel_id = some id))).filter keep := by
    intro rows
    rw [List.filter_filter]
    exact List.filter_congr (fun row _ => Bool.and_comm _ _)
  rw [split, split, alike.message]

theorem userSender_alike (user_id : String) : userSender other user_id = userSender tables user_id := by
  unfold userSender
  rw [alike.user]

theorem senderOf_alike {message_id : String} {message : Message}
    (stored : tables.message.get? message_id = some message)
    (inside : message.channel_id = some id) : senderOf other message = senderOf tables message := by
  unfold senderOf
  rw [userSender_alike alike]
  cases info : webhookInfo message.message_meta with
  | error error => rfl
  | ok webhook_id =>
    cases webhook_id with
    | none => rfl
    | some webhook_id =>
      have same := alike.named message_id message webhook_id stored inside info
      simp only [Except.map, Option.map_some, webhookSender, same]

theorem response_alike (sound : Sound tables) (sound' : Sound other) {message_id : String}
    {message : Message} (stored : tables.message.get? message_id = some message)
    (inside : message.channel_id = some id) :
    response other (read other) (message_id, message) =
      response tables (read tables) (message_id, message) := by
  obtain ⟨rank, ordered⟩ := sound.ordered
  induction low : rank message_id using Nat.strong_induction_on generalizing message_id message with
  | _ bound ih =>
    have sender := senderOf_alike alike stored inside
    cases named : given message.reply_to_id with
    | none => rw [response_none named, response_none named, sender]
    | some quoted =>
      have refers : message.Refers quoted := Or.inr (given_eq_some.mp named).1
      have stored' := ((stored_alike alike message_id message).mpr ⟨stored, inside⟩).1
      have reads : read other quoted = read tables quoted := by
        rw [read_eq sound, read_eq sound']
        cases there : tables.message.get? quoted with
        | none =>
          cases there' : other.message.get? quoted with
          | none => rfl
          | some row =>
            have within := sound'.inside message_id message quoted row stored' refers there'
            rw [inside] at within
            have was := ((stored_alike alike quoted row).mp ⟨there', within⟩).1
            rw [there] at was
            cases was
        | some row =>
          have within := sound.inside message_id message quoted row stored refers there
          rw [inside] at within
          rw [((stored_alike alike quoted row).mpr ⟨there, within⟩).1]
          dsimp only
          have lower : rank quoted < bound := by
            rw [← low]
            exact ordered message_id message quoted stored refers
          rw [ih (rank quoted) lower there within rfl]
      rw [response_some named, response_some named, reads, sender]

theorem readAll_alike (sound : Sound tables) (sound' : Sound other)
    {rows : List (String × Message)} (inside : ∀ row ∈ rows,
      tables.message.get? row.1 = some row.2 ∧ row.2.channel_id = some id) :
    readAll other rows = readAll tables rows := by
  unfold readAll
  induction rows with
  | nil => rfl
  | cons row rest ih =>
    obtain ⟨stored, here⟩ := inside row List.mem_cons_self
    rw [List.mapM_cons, List.mapM_cons, response_alike alike sound sound' stored here,
      ih (fun row member => inside row (List.mem_cons_of_mem _ member))]

theorem reactions_alike {message_id : String} {message : Message}
    (stored : tables.message.get? message_id = some message)
    (inside : message.channel_id = some id) :
    get_reactions_by_message_id other message_id = get_reactions_by_message_id tables message_id := by
  have split : ∀ tables : Tables, get_reactions_by_message_id tables message_id =
      (tables.reaction.filter (fun reaction => decide (reaction.message_id = message_id))).filter
        (fun reaction => tables.access.user.any (fun user => decide (user.id = reaction.user_id))) := by
    intro tables
    rw [get_reactions_by_message_id, List.filter_filter]
    exact List.filter_congr (fun row _ => Bool.and_comm _ _)
  rw [split other, split tables, alike.user, alike.reaction message_id message stored inside]

theorem repliesTo_alike (sound : Sound tables) (sound' : Sound other) {message_id : String}
    {message : Message} (stored : tables.message.get? message_id = some message)
    (inside : message.channel_id = some id) :
    repliesTo other message_id = repliesTo tables message_id := by
  have within : ∀ {tables : Tables}, Sound tables →
      tables.message.get? message_id = some message → repliesTo tables message_id =
        tables.message.entries.filter (fun row =>
          decide (row.2.channel_id = some id) && decide (row.2.parent_id = some message_id)) := by
    intro tables sound stored
    refine List.filter_congr (fun row member => ?_)
    by_cases parent : row.2.parent_id = some message_id
    · have same := sound.inside row.1 row.2 message_id message (Dict.mem_entries_iff.mp member)
        (Or.inl parent) stored
      rw [decide_eq_true parent, decide_eq_true (same.symm.trans inside)]
      rfl
    · rw [decide_eq_false parent, Bool.and_false]
  rw [within sound stored,
    within sound' ((stored_alike alike message_id message).mpr ⟨stored, inside⟩).1]
  exact filter_alike alike _

omit alike in
theorem repliesTo_inside (sound : Sound tables) {message_id : String} {message : Message}
    (stored : tables.message.get? message_id = some message) (inside : message.channel_id = some id)
    {row : String × Message} (reply : row ∈ newestFirst (repliesTo tables message_id)) :
    tables.message.get? row.1 = some row.2 ∧ row.2.channel_id = some id := by
  have member := List.mem_filter.mp (mem_newestFirst.mp reply)
  have there := Dict.mem_entries_iff.mp member.1
  refine ⟨there, ?_⟩
  rw [← sound.inside row.1 row.2 message_id message there (Or.inl (of_decide_eq_true member.2))
    stored, inside]

theorem get_message_by_id_alike (sound : Sound tables) (sound' : Sound other) {message_id : String}
    {message : Message} (stored : tables.message.get? message_id = some message)
    (inside : message.channel_id = some id) :
    get_message_by_id other message_id = get_message_by_id tables message_id := by
  have stored' := ((stored_alike alike message_id message).mpr ⟨stored, inside⟩).1
  have reads : read other message_id = read tables message_id := by
    rw [read_eq sound, read_eq sound', stored, stored']
    dsimp only
    rw [response_alike alike sound sound' stored inside]
  have threads : get_thread_replies_by_message_id other message_id =
      get_thread_replies_by_message_id tables message_id := by
    unfold get_thread_replies_by_message_id
    rw [repliesTo_alike alike sound sound' stored inside]
    exact readAll_alike alike sound sound' (fun row reply =>
      repliesTo_inside sound stored inside reply)
  unfold get_message_by_id
  rw [reads, threads, reactions_alike alike stored inside]

end Reading

theorem any_of_filter {α : Type} {first second : List α} {keep found : α → Bool}
    (same : first.filter keep = second.filter keep)
    (within : ∀ item, found item = true → keep item = true) :
    first.any found = second.any found := by
  have inside : ∀ items : List α, items.any found = (items.filter keep).any found := by
    intro items
    rw [Bool.eq_iff_iff, List.any_eq_true, List.any_eq_true]
    constructor
    · rintro ⟨item, member, here⟩
      exact ⟨item, List.mem_filter.mpr ⟨member, within item here⟩, here⟩
    · rintro ⟨item, member, here⟩
      exact ⟨item, (List.mem_filter.mp member).1, here⟩
  rw [inside, inside second, same]

section Access

variable {id : String} {tables other : Tables} (same : SameIn id tables other)
include same

theorem is_user_channel_member_alike (user_id : String) :
    is_user_channel_member other id user_id = is_user_channel_member tables id user_id := by
  refine any_of_filter same.member ?_
  intro member here
  rw [Bool.and_eq_true, ChannelMember.at, Bool.and_eq_true] at here
  exact here.1.1

theorem has_access_alike (user_id permission : String) :
    AccessGrants.has_access other.access user_id "channel" id permission none =
      AccessGrants.has_access tables.access user_id "channel" id permission none := by
  have groups : AccessGrants.groupIds other.access user_id none =
      AccessGrants.groupIds tables.access user_id none := by
    simp only [AccessGrants.groupIds, AccessGrants.get_groups_by_member_id, same.group,
      same.group_member]
  have asked : ∀ (grants : List AccessGrant) (found : AccessGrant → Bool),
      (grants.find? found).isSome = grants.any found := by
    intro grants found
    rw [Bool.eq_iff_iff, List.find?_isSome, List.any_eq_true]
  unfold AccessGrants.has_access
  rw [groups, asked, asked]
  refine any_of_filter same.access_grant ?_
  intro grant here
  simp only [Bool.and_eq_true, decide_eq_true_eq] at here
  simp [grantElsewhere, here.1.1.2]

theorem mayRead_alike (caller : Caller) (channel : Channel) :
    mayUse other caller id channel "read" true = mayUse tables caller id channel "read" true := by
  unfold mayUse channel_has_access
  rw [is_user_channel_member_alike same, has_access_alike same]
  rfl

theorem findChannel_alike : findChannel other id = findChannel tables id := by
  unfold findChannel
  rw [same.channel]

theorem checkRead_alike (event : Event) : checkRead other event id = checkRead tables event id := by
  unfold checkRead checkUse
  rw [findChannel_alike same]
  simp only [mayRead_alike same]

theorem openChannel_alike (named : NamedAlike id tables other) (event : Event) :
    (∃ refused, openChannel event.fresh tables event.caller id = .error refused ∧
      openChannel event.fresh other event.caller id = .error refused) ∨
    ∃ opened opened', openChannel event.fresh tables event.caller id = .ok opened ∧
      openChannel event.fresh other event.caller id = .ok opened' ∧
        ReadsAlike id opened.tables opened'.tables ∧
          opened.tables.message = tables.message ∧ opened'.tables.message = other.message := by
  unfold openChannel checkUse
  rw [findChannel_alike same]
  simp only [mayRead_alike same]
  cases findChannel tables id with
  | error refused => exact Or.inl ⟨refused, rfl, rfl⟩
  | ok channel =>
    dsimp only [Bind.bind, Except.bind]
    cases allowed : mayUse tables event.caller id channel "read" true with
    | false => exact Or.inl ⟨_, rfl, rfl⟩
    | true =>
      refine Or.inr ⟨_, _, rfl, rfl, ?_⟩
      have alike := same.readsAlike named
      rw [quiet_tables, quiet_tables]
      split
      · exact ⟨alike, rfl, rfl⟩
      · obtain ⟨_, messages, access, webhooks, reactions⟩ :=
          @join_channel_frame tables event.fresh.now id event.caller.id
        obtain ⟨_, messages', access', webhooks', reactions'⟩ :=
          @join_channel_frame other event.fresh.now id event.caller.id
        refine ⟨⟨?_, ?_, ?_, ?_⟩, messages, messages'⟩
        · rw [access, access', alike.user]
        · rw [messages, messages', alike.message]
        · rw [messages, reactions, reactions']
          exact alike.reaction
        · unfold NamedAlike
          rw [messages, webhooks, webhooks']
          exact named

end Access

section Answers

variable {id : String} {tables other : Tables} (same : SameIn id tables other)
  (named : NamedAlike id tables other) (sound : Sound tables) (sound' : Sound other)
include same named sound sound'

theorem listed_alike (event : Event) (skip limit : Nat) :
    get_channel_messages other event id skip limit =
      get_channel_messages tables event id skip limit := by
  unfold get_channel_messages
  cases check_channels_access event with
  | error refused => rfl
  | ok _ =>
    rcases openChannel_alike same named event with ⟨refused, opens, opens'⟩ |
      ⟨opened, opened', opens, opens', alike, messages, messages'⟩
    · rw [opens, opens']
    · have soundly := sound_of_messages sound messages
      have soundly' := sound_of_messages sound' messages'
      rw [opens, opens']
      have rows : topLevel opened'.tables id = topLevel opened.tables id := filter_alike alike _
      have lists : get_messages_by_channel_id opened'.tables id skip limit =
          get_messages_by_channel_id opened.tables id skip limit := by
        unfold get_messages_by_channel_id
        rw [rows]
        exact readAll_alike alike soundly soundly' (fun row member => topLevel_page_inside member)
      change (raised (get_messages_by_channel_id opened'.tables id skip limit)).bind (fun listing =>
        .ok (listing.map (listedMessage opened'.tables))) =
          (raised (get_messages_by_channel_id opened.tables id skip limit)).bind (fun listing =>
            .ok (listing.map (listedMessage opened.tables)))
      rw [lists]
      cases listing : get_messages_by_channel_id opened.tables id skip limit with
      | error error => rfl
      | ok messages =>
        refine congrArg Except.ok (List.map_congr_left (fun found member => ?_))
        obtain ⟨stored, inside, _⟩ := readAll_inside soundly
          (fun row there => topLevel_page_inside there) listing member
        have replies := repliesTo_alike alike soundly soundly' stored inside
        have reactions := reactions_alike alike stored inside
        unfold listedMessage get_thread_reply_count
        rw [replies, reactions]

omit sound sound' in
theorem pinned_alike (event : Event) (page : Int) :
    get_pinned_channel_messages other event id page =
      get_pinned_channel_messages tables event id page := by
  have alike := same.readsAlike named
  have rows : ∀ skip limit, get_pinned_messages_by_channel_id other id skip limit =
      get_pinned_messages_by_channel_id tables id skip limit := by
    intro skip limit
    unfold get_pinned_messages_by_channel_id
    rw [filter_alike alike]
  have each : ∀ row : String × Message, tables.message.get? row.1 = some row.2 →
      row.2.channel_id = some id → pinnedMessage other row = pinnedMessage tables row := by
    intro row stored inside
    have sender : pinnedSender other row.2 = pinnedSender tables row.2 := by
      unfold pinnedSender
      rw [userSender_alike alike]
    unfold pinnedMessage
    rw [sender, reactions_alike alike stored inside]
  have all : ∀ rows : List (String × Message), (∀ row ∈ rows,
      tables.message.get? row.1 = some row.2 ∧ row.2.channel_id = some id) →
        rows.mapM (pinnedMessage other) = rows.mapM (pinnedMessage tables) := by
    intro rows inside
    induction rows with
    | nil => rfl
    | cons row rest ih =>
      obtain ⟨stored, here⟩ := inside row List.mem_cons_self
      rw [List.mapM_cons, List.mapM_cons, each row stored here,
        ih (fun row member => inside row (List.mem_cons_of_mem _ member))]
  unfold get_pinned_channel_messages
  rw [checkRead_alike same]
  dsimp only
  rw [rows, all _ (fun row member => mem_pinned member)]

theorem thread_alike (event : Event) (message_id : String) (skip limit : Nat) :
    get_channel_thread_messages other event id message_id skip limit =
      get_channel_thread_messages tables event id message_id skip limit := by
  have alike := same.readsAlike named
  have head : (other.message.get? message_id).filter (fun message =>
      decide (message.channel_id = some id)) = (tables.message.get? message_id).filter
        (fun message => decide (message.channel_id = some id)) := by
    refine Option.ext (fun message => ?_)
    rw [Option.filter_eq_some_iff, Option.filter_eq_some_iff, decide_eq_true_eq]
    exact stored_alike alike message_id message
  have lists : get_messages_by_parent_id other id message_id skip limit =
      get_messages_by_parent_id tables id message_id skip limit := by
    have rows : threadOf other id message_id = threadOf tables id message_id := filter_alike alike _
    unfold get_messages_by_parent_id
    rw [head]
    cases found : (tables.message.get? message_id).filter (fun message =>
        decide (message.channel_id = some id)) with
    | none => rfl
    | some parent =>
      have pages : threadPage other id (message_id, parent) skip limit =
          threadPage tables id (message_id, parent) skip limit := by
        unfold threadPage
        rw [rows]
      dsimp only
      rw [pages]
      exact readAll_alike alike sound sound' (fun row member => threadPage_inside found member)
  unfold get_channel_thread_messages
  rw [checkRead_alike same, lists]
  cases checkRead tables event id with
  | error refused => rfl
  | ok _ =>
    cases listing : get_messages_by_parent_id tables id message_id skip limit with
    | error error => rfl
    | ok messages =>
      refine congrArg Except.ok (List.map_congr_left (fun found member => ?_))
      unfold get_messages_by_parent_id at listing
      split at listing
      · obtain rfl := Except.ok.inj listing
        cases member
      · rename_i parent there
        obtain ⟨stored, inside, _⟩ := readAll_inside sound
          (fun row shown => threadPage_inside there shown) listing member
        unfold threadMessage
        rw [reactions_alike alike stored inside]

theorem findMessage_alike {message_id : String}
    (place : (¬ Foreign id tables message_id ∧ ¬ Foreign id other message_id) ∨
      (ForeignRead id tables message_id ∧ ForeignRead id other message_id)) :
    findMessage other id message_id = findMessage tables id message_id := by
  have alike := same.readsAlike named
  rcases place with ⟨here, here'⟩ | ⟨⟨found, reads, apart⟩, ⟨found', reads', apart'⟩⟩
  · have reads : get_message_by_id other message_id = get_message_by_id tables message_id := by
      cases stored : tables.message.get? message_id with
      | some message =>
        have inside : message.channel_id = some id := by
          by_contra outside
          exact here ⟨message, stored, outside⟩
        exact get_message_by_id_alike alike sound sound' stored inside
      | none =>
        cases stored' : other.message.get? message_id with
        | some message =>
          have inside : message.channel_id = some id := by
            by_contra outside
            exact here' ⟨message, stored', outside⟩
          rw [((stored_alike alike message_id message).mp ⟨stored', inside⟩).1] at stored
          cases stored
        | none =>
          unfold get_message_by_id
          rw [read_eq sound, read_eq sound', stored, stored']
          rfl
    unfold findMessage
    rw [reads]
  · unfold findMessage
    rw [reads, reads']
    change (if found'.shown.message.channel_id = some id then Except.ok found'
      else refuse 400 ERROR_MESSAGES.DEFAULT) = if found.shown.message.channel_id = some id then
        Except.ok found else refuse 400 ERROR_MESSAGES.DEFAULT
    rw [if_neg apart, if_neg apart']

theorem sameAnswers_of_sameIn : SameAnswers id tables other where
  listed := fun event skip limit => listed_alike same named sound sound' event skip limit
  pinned := fun event page => pinned_alike same named event page
  thread := fun event message_id skip limit =>
    thread_alike same named sound sound' event message_id skip limit
  single := by
    intro event message_id place
    unfold get_channel_message
    rw [checkRead_alike same, findMessage_alike same named sound sound' place]
    simp only [userSender_alike (same.readsAlike named)]
  data := by
    intro event message_id place
    unfold get_channel_message_data
    rw [checkRead_alike same, findMessage_alike same named sound sound' place]

end Answers

/-- In every state that requests reach, messages are confined to their channels; and two such states
that differ in other channels only, and have the same webhooks where the messages of the channel
name them, give the readers of the channel the same answers. -/
theorem messages_confined {tables : Tables} (reached : Reached tables) :
    Confined tables ∧ ∀ other id, Reached other → SameIn id tables other →
      NamedAlike id tables other → SameAnswers id tables other := by
  have sound := sound_of_reached reached
  refine ⟨confined_of_sound sound, ?_⟩
  intro other id reached' same named
  exact sameAnswers_of_sameIn same named sound (sound_of_reached reached')

theorem sameIn_delete {id message_id : String} {tables : Tables} {message : Message}
    (stored : tables.message.get? message_id = some message)
    (apart : message.channel_id ≠ some id) :
    SameIn id tables (delete_message_by_id tables message_id) where
  user := rfl
  group := rfl
  group_member := rfl
  access_grant := rfl
  channel := rfl
  member := rfl
  webhook := fun _ _ _ => Iff.rfl
  message := by
    change (tables.message.entries.filter _).filter _ = _
    rw [List.filter_filter]
    refine List.filter_congr (fun row member => ?_)
    by_cases inside : row.2.channel_id = some id
    · have other : row.1 ≠ message_id := by
        rintro rfl
        obtain rfl := Option.some.inj (stored.symm.trans (Dict.mem_entries_iff.mp member))
        exact apart inside
      simp [inside, other]
    · simp [inside]
  reaction := by
    intro other row there inside
    have different : other ≠ message_id := by
      rintro rfl
      obtain rfl := Option.some.inj (stored.symm.trans there)
      exact apart inside
    change (tables.reaction.filter _).filter _ = _
    rw [List.filter_filter]
    refine List.filter_congr (fun reaction _ => ?_)
    by_cases here : reaction.message_id = other
    · simp [here, different]
    · simp [here]

theorem deleteMessage_tables {tables : Tables} {event : Event} {outcome : Outcome}
    {id message_id : String} (asked : event.request = .delete_message_by_id id message_id)
    (done : answered tables event = .ok outcome) :
    outcome.tables = delete_message_by_id tables message_id := by
  obtain ⟨_, _, done⟩ := bind_eq_ok.mp done
  rw [asked] at done
  obtain ⟨channel, _, done⟩ := bind_eq_ok.mp done
  obtain ⟨message, _, done⟩ := bind_eq_ok.mp done
  obtain ⟨_, _, done⟩ := bind_eq_ok.mp done
  obtain ⟨_, _, done⟩ := bind_eq_ok.mp done
  obtain rfl := Except.ok.inj done
  exact withParent_tables _ _ _

def twoChannels : List Event :=
  [byAdmin "ann" "c" (.create_new_channel ⟨some "group", none, none, some ["bob"]⟩),
    byAdmin "ann" "d" (.create_new_channel ⟨some "group", none, none, some []⟩),
    byAdmin "bob" "m" (.post_new_message "c" ⟨"Hello", none, none, none, none⟩),
    byAdmin "ann" "n" (.post_new_message "d" ⟨"A note", none, none, none, none⟩)]

def noteDeleted : Event := byAdmin "ann" "x" (.delete_message_by_id "d" "n")

theorem note_deleted_elsewhere : ∃ tables, twoChannels.foldlM step noChannels = some tables ∧
    Reached tables ∧ Reached (delete_message_by_id tables "n") ∧
      SameIn "c" tables (delete_message_by_id tables "n") := by
  obtain ⟨tables, ran⟩ := Option.isSome_iff_exists.mp
    (by decide +kernel : (twoChannels.foldlM step noChannels).isSome = true)
  have note : ((twoChannels.foldlM step noChannels).all (fun tables =>
      unused tables "x" && (answered tables noteDeleted).isOk &&
        (tables.message.get? "n").any (fun message =>
          decide (message.channel_id ≠ some "c")))) = true := by
    decide +kernel
  rw [ran, Option.all_some, Bool.and_eq_true, Bool.and_eq_true] at note
  obtain ⟨⟨new, answer⟩, there⟩ := note
  obtain ⟨message, stored, apart⟩ := (Option.any_eq_true _ _).mp there
  have stepped : step tables noteDeleted = some (delete_message_by_id tables "n") := by
    cases done : answered tables noteDeleted with
    | error refused =>
      rw [done] at answer
      cases answer
    | ok outcome =>
      refine step_eq_some.mpr ⟨unused_iff.mp new, ?_⟩
      rw [handle, done]
      exact deleteMessage_tables rfl done
  refine ⟨tables, ran, ⟨noChannels, twoChannels, rfl, ran⟩,
    ⟨noChannels, twoChannels ++ [noteDeleted], rfl, ?_⟩,
    sameIn_delete stored (of_decide_eq_true apart)⟩
  rw [List.foldlM_append, ran]
  change [noteDeleted].foldlM step tables = _
  rw [List.foldlM_cons, stepped]
  rfl

theorem note_not_noticed : ∃ tables, twoChannels.foldlM step noChannels = some tables ∧
    Confined tables ∧ SameAnswers "c" tables (delete_message_by_id tables "n") := by
  obtain ⟨tables, ran, reached, reached', same⟩ := note_deleted_elsewhere
  obtain ⟨confined, answers⟩ := messages_confined reached
  exact ⟨tables, ran, confined, answers _ "c" reached' same (fun _ _ _ _ _ _ => rfl)⟩

def statusCode {α : Type} : Except HTTPException α → Nat
  | .ok _ => 200
  | .error refused => refused.status_code

theorem foreign_message_told_apart :
    ¬ ∀ (tables other : Tables) (id : String), Reached tables → Reached other →
      SameIn id tables other → ∀ event message_id,
        get_channel_message other event id message_id =
          get_channel_message tables event id message_id := by
  intro always
  obtain ⟨tables, ran, reached, reached', same⟩ := note_deleted_elsewhere
  have answers := always tables _ "c" reached reached' same (byAdmin "bob" "y" .reading) "n"
  have codes : ((twoChannels.foldlM step noChannels).all (fun tables =>
      decide (statusCode (get_channel_message tables (byAdmin "bob" "y" .reading) "c" "n") = 400) &&
        decide (statusCode (get_channel_message (delete_message_by_id tables "n")
          (byAdmin "bob" "y" .reading) "c" "n") = 404))) = true := by
    decide +kernel
  rw [ran, Option.all_some, answers, Bool.and_eq_true, decide_eq_true_eq, decide_eq_true_eq] at codes
  exact absurd (codes.1.symm.trans codes.2) (by decide)

end OpenWebui.Channels
