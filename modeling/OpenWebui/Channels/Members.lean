import OpenWebui.Channels.Accepted

/-! The members of channels: what each operation, and each request, does to them. -/

namespace OpenWebui.Channels

section Operations

variable {tables : Tables} {id user_id : String}

theorem mem_memberIds : user_id ∈ memberIds tables id ↔
    ∃ member ∈ tables.member, member.channel_id = id ∧ member.user_id = user_id := by
  simp only [memberIds, get_members_by_channel_id, List.mem_map, List.mem_filter,
    decide_eq_true_eq, and_assoc]

theorem memberIds_congr {other : Tables} (same : other.member = tables.member) :
    memberIds other id = memberIds tables id := by
  unfold memberIds get_members_by_channel_id
  rw [same]

theorem memberIds_append (members : List ChannelMember) :
    memberIds { tables with member := tables.member ++ members } id =
      memberIds tables id ++ (members.filter (fun member => decide (member.channel_id = id))).map
        ChannelMember.user_id := by
  simp only [memberIds, get_members_by_channel_id, List.filter_append, List.map_append]

theorem membership_models_at (now : Int) (channel_id : String) (user_ids : List String) :
    ((create_membership_models now channel_id user_ids).filter (fun member =>
      decide (member.channel_id = id))).map ChannelMember.user_id =
        if channel_id = id then user_ids else [] := by
  unfold create_membership_models
  induction user_ids with
  | nil => simp
  | cons first rest ih =>
    rw [List.map_cons, List.filter_cons]
    by_cases here : channel_id = id
    · simp only [newMember, here, decide_true, if_true, List.map_cons] at ih ⊢
      rw [← here] at ih ⊢
      simpa using ih
    · simp only [newMember, here, decide_false, Bool.false_eq_true, if_false] at ih ⊢
      exact ih

theorem memberIds_changeFirst {found : ChannelMember → Bool}
    {change : ChannelMember → ChannelMember}
    (kept : ∀ member, (change member).channel_id = member.channel_id ∧
      (change member).user_id = member.user_id) :
    memberIds { tables with member := changeFirst found change tables.member } id =
      memberIds tables id := by
  unfold memberIds get_members_by_channel_id
  dsimp only
  induction tables.member with
  | nil => rfl
  | cons first rest ih =>
    unfold changeFirst
    split
    · rw [List.filter_cons, List.filter_cons, (kept first).1]
      split
      · rw [List.map_cons, List.map_cons, (kept first).2]
      · rfl
    · rw [List.filter_cons, List.filter_cons]
      split
      · rw [List.map_cons, List.map_cons, ih]
      · exact ih

@[simp] theorem memberIds_update_member_active_status (channel_id other : String)
    (is_active : Bool) :
    memberIds (update_member_active_status tables channel_id other is_active) id =
      memberIds tables id :=
  memberIds_changeFirst (fun _ => ⟨rfl, rfl⟩)

@[simp] theorem memberIds_update_member_last_read_at (now : Int) (channel_id other : String) :
    memberIds (update_member_last_read_at now tables channel_id other) id = memberIds tables id :=
  memberIds_changeFirst (fun _ => ⟨rfl, rfl⟩)

theorem get_member_eq_none {channel_id other : String} :
    get_member_by_channel_and_user_id tables channel_id other = none ↔
      other ∉ memberIds tables channel_id := by
  unfold get_member_by_channel_and_user_id
  rw [List.find?_eq_none, mem_memberIds, not_exists]
  constructor
  · rintro absent member ⟨stored, channel, user⟩
    exact absent member stored (by simp [ChannelMember.at, channel, user])
  · intro absent member stored here
    rw [ChannelMember.at, Bool.and_eq_true, decide_eq_true_eq, decide_eq_true_eq] at here
    exact absent member ⟨stored, here⟩

theorem memberIds_join_channel (now : Int) (channel_id other : String) :
    memberIds (join_channel now tables channel_id other) id =
      memberIds tables id ++
        if channel_id = id ∧ other ∉ memberIds tables channel_id then [other] else [] := by
  unfold join_channel
  cases found : get_member_by_channel_and_user_id tables channel_id other with
  | some member =>
    have inside : ¬ other ∉ memberIds tables channel_id := by
      intro absent
      rw [get_member_eq_none.mpr absent] at found
      cases found
    rw [if_neg (fun both => inside both.2), List.append_nil]
  | none =>
    have absent := get_member_eq_none.mp found
    refine (memberIds_append [newMember now channel_id other]).trans ?_
    have models := @membership_models_at id now channel_id [other]
    rw [create_membership_models, List.map_singleton] at models
    rw [models]
    simp only [absent, not_false_eq_true, and_true]

theorem memberIds_add_members (now : Int) (channel_id invited_by : String)
    (user_ids group_ids : Option (List String)) :
    memberIds (add_members_to_channel now tables channel_id invited_by user_ids group_ids) id =
      memberIds tables id ++
        if channel_id = id then
          (collect_unique_user_ids tables.access invited_by user_ids group_ids).filter
            (fun other => decide (other ∉ memberIds tables channel_id))
        else [] := by
  unfold add_members_to_channel
  dsimp only
  rw [memberIds_append, membership_models_at]

theorem memberIds_remove_members (channel_id : String) (user_ids : List String) :
    memberIds (remove_members_from_channel tables channel_id user_ids) id =
      (memberIds tables id).filter (fun other =>
        !(decide (id = channel_id) && decide (other ∈ user_ids))) := by
  unfold memberIds get_members_by_channel_id remove_members_from_channel
  rw [List.filter_map]
  dsimp only
  rw [List.filter_filter, List.filter_filter]
  congr 1
  refine List.filter_congr ?_
  intro member _
  by_cases here : member.channel_id = id
  · simp [here]
  · simp [here]

theorem memberIds_insert_new_channel {fresh : Fresh} {form : CreateChannelForm} {owner : String}
    (new : memberIds tables fresh.uuid = []) :
    memberIds (insert_new_channel fresh tables form owner) id =
      if fresh.uuid = id then
        if (channelOf form owner).closed then
          collect_unique_user_ids tables.access owner form.user_ids form.group_ids
        else []
      else memberIds tables id := by
  have grown := @memberIds_append tables id (firstMembers fresh tables.access form owner)
  refine Eq.trans (memberIds_congr rfl) (grown.trans ?_)
  have models : ((firstMembers fresh tables.access form owner).filter (fun member =>
      decide (member.channel_id = id))).map ChannelMember.user_id =
        if fresh.uuid = id then
          if (channelOf form owner).closed then
            collect_unique_user_ids tables.access owner form.user_ids form.group_ids
          else []
        else [] := by
    unfold firstMembers
    split
    · exact membership_models_at _ _ _
    · split <;> rfl
  rw [models]
  split
  · rename_i here
    rw [← here, new, List.nil_append]
  · rw [List.append_nil]

@[simp] theorem memberIds_activateMembers (channel_id : String) :
    memberIds (activateMembers tables channel_id) id = memberIds tables id := by
  unfold activateMembers
  generalize get_members_by_channel_id tables channel_id = members
  induction members generalizing tables with
  | nil => rfl
  | cons first rest ih =>
    rw [List.foldl_cons, ih]
    split
    · rfl
    · exact memberIds_update_member_active_status _ _ _

theorem activateMembers_channel (channel_id : String) :
    (activateMembers tables channel_id).channel = tables.channel ∧
      (activateMembers tables channel_id).message = tables.message ∧
      (activateMembers tables channel_id).access = tables.access ∧
      (activateMembers tables channel_id).webhook = tables.webhook ∧
      (activateMembers tables channel_id).reaction = tables.reaction := by
  unfold activateMembers
  generalize get_members_by_channel_id tables channel_id = members
  induction members generalizing tables with
  | nil => exact ⟨rfl, rfl, rfl, rfl, rfl⟩
  | cons first rest ih =>
    rw [List.foldl_cons]
    split
    · exact ih
    · exact ih

theorem mem_collect {access : AccessGrants.Database} {invited_by other : String}
    {user_ids group_ids : Option (List String)} :
    other ∈ collect_unique_user_ids access invited_by user_ids group_ids ↔
      other ∈ user_ids.getD [] ∨ other = invited_by ∨
        ∃ group ∈ group_ids.getD [], other ∈ AccessGrants.get_group_user_ids_by_id access group := by
  simp only [collect_unique_user_ids, List.mem_dedup, List.mem_append, List.mem_singleton,
    List.mem_flatMap, or_assoc]

end Operations

section Outcomes

variable {tables : Tables}

@[simp] theorem quiet_tables : (quiet tables).tables = tables := rfl

@[simp] theorem announce_tables (id message_id : String)
    (sent : MessageResponse → MessageResponse) :
    (announce tables id message_id sent).tables = tables := by
  unfold announce
  split <;> rfl

@[simp] theorem withParent_tables (outcome : Outcome) (id : String) (parent_id : Option String) :
    (withParent outcome id parent_id).tables = outcome.tables := by
  unfold withParent
  split <;> rfl

variable (fresh : Fresh) (caller : Caller) (id : String) (channel : Channel) (form : MessageForm)

@[simp] theorem posted_tables :
    (posted fresh tables caller id channel form).tables =
      postedTables fresh tables caller id channel form := by
  unfold posted
  dsimp only
  split
  · rw [withParent_tables]
  · rfl

theorem join_channel_frame (now : Int) (channel_id user_id : String) :
    (join_channel now tables channel_id user_id).channel = tables.channel ∧
      (join_channel now tables channel_id user_id).message = tables.message ∧
      (join_channel now tables channel_id user_id).access = tables.access ∧
      (join_channel now tables channel_id user_id).webhook = tables.webhook ∧
      (join_channel now tables channel_id user_id).reaction = tables.reaction := by
  unfold join_channel
  split <;> exact ⟨rfl, rfl, rfl, rfl, rfl⟩

theorem insert_new_message_frame (channel_id user_id : String) :
    (insert_new_message fresh tables form channel_id user_id).channel = tables.channel ∧
      (insert_new_message fresh tables form channel_id user_id).access = tables.access ∧
      (insert_new_message fresh tables form channel_id user_id).webhook = tables.webhook ∧
      (insert_new_message fresh tables form channel_id user_id).reaction = tables.reaction := by
  obtain ⟨channels, _, access, webhooks, reactions⟩ :=
    @join_channel_frame tables fresh.now channel_id user_id
  exact ⟨channels, access, webhooks, reactions⟩

theorem memberIds_insert_new_message (channel_id user_id other : String) :
    memberIds (insert_new_message fresh tables form channel_id user_id) other =
      memberIds tables other ++
        if channel_id = other ∧ user_id ∉ memberIds tables channel_id then [user_id] else [] :=
  (memberIds_congr rfl).trans (memberIds_join_channel fresh.now channel_id user_id)

theorem postedTables_frame :
    (postedTables fresh tables caller id channel form).channel = tables.channel ∧
      (postedTables fresh tables caller id channel form).access = tables.access ∧
      (postedTables fresh tables caller id channel form).webhook = tables.webhook ∧
      (postedTables fresh tables caller id channel form).reaction = tables.reaction ∧
      (postedTables fresh tables caller id channel form).message =
        (insert_new_message fresh tables form id caller.id).message := by
  obtain ⟨channels, access, webhooks, reactions⟩ :=
    @insert_new_message_frame tables fresh form id caller.id
  unfold postedTables
  dsimp only
  split
  · obtain ⟨activated, messages, accesses, hooks, reacted⟩ := @activateMembers_channel
      (insert_new_message fresh tables form id caller.id) id
    exact ⟨activated.trans channels, accesses.trans access, hooks.trans webhooks,
      reacted.trans reactions, messages⟩
  · exact ⟨channels, access, webhooks, reactions, rfl⟩

theorem memberIds_postedTables (other : String) :
    memberIds (postedTables fresh tables caller id channel form) other =
      memberIds tables other ++
        if id = other ∧ caller.id ∉ memberIds tables id then [caller.id] else [] := by
  rw [← memberIds_insert_new_message fresh form]
  unfold postedTables
  dsimp only
  split
  · exact memberIds_activateMembers _
  · rfl

end Outcomes

theorem mem_of_is_user_channel_member {tables : Tables} {channel_id user_id : String}
    (member : is_user_channel_member tables channel_id user_id = true) :
    user_id ∈ memberIds tables channel_id := by
  unfold is_user_channel_member at member
  obtain ⟨row, stored, here⟩ := List.any_eq_true.mp member
  rw [Bool.and_eq_true, ChannelMember.at, Bool.and_eq_true, decide_eq_true_eq,
    decide_eq_true_eq] at here
  exact mem_memberIds.mpr ⟨row, stored, here.1⟩

/-- The id is not empty and that of no row, and no row refers to it. -/
structure Unused (tables : Tables) (uuid : String) : Prop where
  filled : uuid ≠ ""
  channel : uuid ∉ tables.channel.keys
  webhook : uuid ∉ tables.webhook.keys
  message : uuid ∉ tables.message.keys
  member : memberIds tables uuid = []
  parent : ∀ id message, tables.message.get? id = some message → message.parent_id ≠ some uuid
  reply : ∀ id message, tables.message.get? id = some message → message.reply_to_id ≠ some uuid
  inside : ∀ id message, tables.message.get? id = some message → message.channel_id ≠ some uuid
  reaction : ∀ reaction ∈ tables.reaction, reaction.message_id ≠ uuid

theorem unused_iff {tables : Tables} {uuid : String} :
    unused tables uuid = true ↔ Unused tables uuid := by
  have members : (∀ member ∈ tables.member, member.channel_id ≠ uuid) ↔
      memberIds tables uuid = [] := by
    rw [List.eq_nil_iff_forall_not_mem]
    simp only [mem_memberIds, not_exists, not_and]
    constructor
    · intro apart user_id member stored here
      exact absurd here (apart member stored)
    · intro nobody member stored here
      exact nobody member.user_id member stored here rfl
  have rows : ∀ test : Message → Prop, (∀ row ∈ tables.message.entries, test row.2) ↔
      ∀ id message, tables.message.get? id = some message → test message := by
    intro test
    constructor
    · intro all id message found
      exact all (id, message) (Dict.mem_entries_iff.mpr found)
    · intro all row stored
      exact all row.1 row.2 (Dict.mem_entries_iff.mp stored)
  simp only [unused, Bool.and_eq_true, decide_eq_true_eq, List.all_eq_true, and_assoc]
  rw [rows (fun message => message.parent_id ≠ some uuid ∧ message.reply_to_id ≠ some uuid ∧
    message.channel_id ≠ some uuid), members]
  constructor
  · rintro ⟨filled, channel, webhook, message, member, refers, reaction⟩
    exact ⟨filled, channel, webhook, message, member, fun id row found => (refers id row found).1,
      fun id row found => (refers id row found).2.1,
      fun id row found => (refers id row found).2.2, reaction⟩
  · intro all
    exact ⟨all.filled, all.channel, all.webhook, all.message, all.member, fun id row found =>
      ⟨all.parent id row found, all.reply id row found, all.inside id row found⟩, all.reaction⟩

def Event.opens? (event : Event) : Option (CreateChannelForm × Option (List String)) :=
  match event.request with
  | .get_dm_channel_by_user_id user_id =>
    some (⟨some "dm", none, none, some [user_id]⟩, some [event.caller.id, user_id])
  | .create_new_channel form =>
    some (form, if form.type = some "dm" then form.user_ids.map (fun ids => event.caller.id :: ids)
      else none)
  | _ => none

def Request.plain : Request → Bool
  | .get_dm_channel_by_user_id _ => false
  | .create_new_channel _ => false
  | .add_members_by_id _ _ _ => false
  | .remove_members_by_id _ _ => false
  | .post_webhook_message _ _ _ => false
  | _ => true

/-- A request is plain, or finds the dm channel that it would make. -/
def Idle (tables : Tables) (event : Event) : Prop :=
  event.request.plain = true ∨ ∃ form users existing, event.opens? = some (form, some users) ∧
    get_dm_channel_by_user_ids tables users = some existing

/-- What a request does to the channels and their members. -/
inductive MembersChange (tables : Tables) (event : Event) (after : Tables) : Prop where
  | same (idle : Idle tables event) (channels : after.channel = tables.channel)
      (members : ∀ id, memberIds after id = memberIds tables id)
  | opened (form : CreateChannelForm) (users : Option (List String))
      (asked : event.opens? = some (form, users)) (type : form.type = some "dm" ↔ users.isSome)
      (absent : ∀ user_ids, users = some user_ids → get_dm_channel_by_user_ids tables user_ids = none)
      (channels : after.channel =
        tables.channel.set event.fresh.uuid (channelOf form event.caller.id))
      (members : ∀ id, memberIds after id = if event.fresh.uuid = id then
        if (channelOf form event.caller.id).closed then
          collect_unique_user_ids tables.access event.caller.id form.user_ids form.group_ids
        else [] else memberIds tables id)
  | added (id : String) (user_ids group_ids : List String) (channel : Channel)
      (asked : event.request = .add_members_by_id id user_ids group_ids)
      (found : tables.channel.get? id = some channel)
      (channels : after.channel = tables.channel)
      (members : ∀ other, memberIds after other = memberIds tables other ++ if id = other then
        (collect_unique_user_ids tables.access event.caller.id (some user_ids)
          (some group_ids)).filter (fun user_id => decide (user_id ∉ memberIds tables id)) else [])
  | removed (id : String) (user_ids : List String) (channel : Channel)
      (asked : event.request = .remove_members_by_id id user_ids)
      (found : tables.channel.get? id = some channel)
      (channels : after.channel = tables.channel)
      (members : ∀ other, memberIds after other = (memberIds tables other).filter (fun user_id =>
        !(decide (other = id) && decide (user_id ∈ user_ids))))
  | joined (id user_id : String) (channel : Channel) (idle : Idle tables event)
      (found : tables.channel.get? id = some channel) (standard : channel.closed = false)
      (channels : after.channel = tables.channel)
      (members : ∀ other, memberIds after other = memberIds tables other ++
        if id = other ∧ user_id ∉ memberIds tables id then [user_id] else [])
  | webhookPosted (webhook_id token content : String) (webhook : ChannelWebhook)
      (channel : Channel) (asked : event.request = .post_webhook_message webhook_id token content)
      (enabled : event.enabled = true)
      (known : get_webhook_by_id_and_token tables webhook_id token = some webhook)
      (found : tables.channel.get? webhook.channel_id = some channel)
      (channels : after.channel = tables.channel)
      (members : ∀ other, memberIds after other = memberIds tables other ++
        if webhook.channel_id = other ∧ webhook.user_id ∉ memberIds tables webhook.channel_id then
          [webhook.user_id] else [])
  | channelDeleted (id : String) (idle : Idle tables event)
      (channels : after.channel = tables.channel.erase id)
      (members : ∀ other, memberIds after other = memberIds tables other)

section Requests

variable {tables : Tables} {event : Event} {outcome : Outcome}

theorem membersChange_openDm (new : Unused tables event.fresh.uuid) {user_ids : List String}
    {form asking : CreateChannelForm} (asked : event.opens? = some (asking, some user_ids))
    (type : asking.type = some "dm")
    (same : ∃ access_grants, form = { asking with access_grants := access_grants }) :
    MembersChange tables event (openDm event.fresh tables event.caller user_ids form).tables := by
  obtain ⟨access_grants, rfl⟩ := same
  unfold openDm
  split
  · rename_i existing known
    exact .same (Or.inr ⟨asking, user_ids, existing, asked, known⟩) rfl
      (fun id => memberIds_update_member_active_status _ _ _)
  · rename_i absent
    refine .opened asking (some user_ids) asked (iff_of_true type rfl) ?_ rfl (fun id => ?_)
    · intro named same
      obtain rfl := Option.some.inj same
      exact absent
    · exact memberIds_insert_new_channel new.member

theorem plain_of_post {request : Request} {posting : String × MessageForm}
    (asked : request.post? = some posting) : request.plain = true := by
  cases request with
  | post_new_message id form => rfl
  | model_response_handler id message_id parent_id thread model_id model_name => rfl
  | _ => cases asked

theorem members_cases (new : Unused tables event.fresh.uuid)
    (accepted : Accepted tables event outcome) : MembersChange tables event outcome.tables := by
  cases accepted with
  | reading asked => exact .same (Or.inl (by rw [asked]; rfl)) rfl (fun _ => rfl)
  | dmOpened user_id asked =>
    have opens : event.opens? = some (⟨some "dm", none, none, some [user_id]⟩,
        some [event.caller.id, user_id]) := by
      rw [Event.opens?, asked]
    exact membersChange_openDm new opens rfl ⟨none, rfl⟩
  | dmCreated form user_ids access_grants asked type named =>
    refine membersChange_openDm new ?_ type ⟨access_grants, rfl⟩
    rw [Event.opens?, asked]
    dsimp only
    rw [if_pos type, named]
    rfl
  | created form access_grants asked type =>
    refine .opened form none ?_ (iff_of_false type (by simp)) (fun _ none => by cases none) rfl
      (fun id => memberIds_insert_new_channel new.member)
    rw [Event.opens?, asked]
    dsimp only
    rw [if_neg type]
  | activated id is_active asked member =>
    exact .same (Or.inl (by rw [asked]; rfl)) rfl
      (fun other => memberIds_update_member_active_status _ _ _)
  | added id user_ids group_ids channel asked found =>
    exact .added id user_ids group_ids channel asked found rfl
      (fun other => memberIds_add_members _ _ _ _ _)
  | removed id user_ids channel asked found =>
    exact .removed id user_ids channel asked found rfl (fun other => memberIds_remove_members _ _)
  | granted id asking access_grants channel asked allowed found =>
    cases access_grants with
    | none => exact .same (Or.inl (by rw [asked]; rfl)) rfl (fun _ => rfl)
    | some grants => exact .same (Or.inl (by rw [asked]; rfl)) rfl (fun _ => memberIds_congr rfl)
  | channelDeleted id channel asked found =>
    exact .channelDeleted id (Or.inl (by rw [asked]; rfl)) rfl (fun _ => memberIds_congr rfl)
  | listed id channel asked found =>
    rw [quiet_tables]
    split
    · exact .same (Or.inl (by rw [asked]; rfl)) rfl (fun _ => rfl)
    · rename_i standard
      exact .joined id event.caller.id channel (Or.inl (by rw [asked]; rfl)) found
        (Bool.eq_false_iff.mpr standard)
        (join_channel_frame _ _ _).1 (fun other => memberIds_join_channel _ _ _)
  | posted id form channel asked found use parent reply =>
    rw [posted_tables]
    have members := @memberIds_postedTables tables event.fresh event.caller id channel form
    have channels := (@postedTables_frame tables event.fresh event.caller id channel form).1
    by_cases closed : channel.closed = true
    · refine .same (Or.inl (plain_of_post asked)) channels (fun other => ?_)
      have inside : event.caller.id ∈ memberIds tables id := by
        rw [mayUse, if_pos closed] at use
        exact mem_of_is_user_channel_member use
      rw [members, if_neg (fun both => both.2 inside), List.append_nil]
    · exact .joined id event.caller.id channel (Or.inl (plain_of_post asked)) found
        (Bool.eq_false_iff.mpr closed) channels members
  | emitted id message_id content finished output message asked named =>
    rw [announce_tables]
    exact .same (Or.inl (by rw [asked]; rfl)) rfl (fun _ => memberIds_congr rfl)
  | pinned id message_id is_pinned channel message asked found named =>
    rw [announce_tables]
    exact .same (Or.inl (by rw [asked]; rfl)) rfl (fun _ => memberIds_congr rfl)
  | updated id message_id form channel message asked found named =>
    rw [announce_tables]
    exact .same (Or.inl (by rw [asked]; rfl)) rfl (fun _ => memberIds_congr rfl)
  | reacted id message_id name channel message asked found named =>
    rw [announce_tables]
    unfold add_reaction_to_message
    split
    · exact .same (Or.inl (by rw [asked]; rfl)) rfl (fun _ => rfl)
    · exact .same (Or.inl (by rw [asked]; rfl)) rfl (fun _ => memberIds_congr rfl)
  | unreacted id message_id name channel message asked found named =>
    rw [announce_tables]
    exact .same (Or.inl (by rw [asked]; rfl)) rfl (fun _ => memberIds_congr rfl)
  | deleted id message_id channel message asked found named =>
    rw [withParent_tables]
    exact .same (Or.inl (by rw [asked]; rfl)) rfl (fun _ => memberIds_congr rfl)
  | webhookMade id name channel asked found =>
    exact .same (Or.inl (by rw [asked]; rfl)) rfl (fun _ => memberIds_congr rfl)
  | webhookRenamed id webhook_id name asked =>
    exact .same (Or.inl (by rw [asked]; rfl)) rfl (fun _ => memberIds_congr rfl)
  | webhookRemoved id webhook_id asked =>
    exact .same (Or.inl (by rw [asked]; rfl)) rfl (fun _ => memberIds_congr rfl)
  | webhookPosted webhook_id token content webhook channel asked enabled known found =>
    rw [announce_tables]
    exact .webhookPosted webhook_id token content webhook channel asked enabled known found
      (insert_new_message_frame _ _ _ _).1 (fun other => memberIds_insert_new_message _ _ _ _ _)
  | lastRead channel_id asked =>
    exact .same (Or.inl (by rw [asked]; rfl)) rfl
      (fun other => memberIds_update_member_last_read_at _ _ _)

end Requests

theorem step_eq_some {tables after : Tables} {event : Event} :
    step tables event = some after ↔
      Unused tables event.fresh.uuid ∧ (handle tables event).tables = after := by
  unfold step
  rw [← unused_iff]
  split
  · rename_i new
    simp only [Option.some.injEq, new, true_and]
  · rename_i used
    simp only [reduceCtorEq, used, false_and]

theorem holds_step_iff {holds : Tables → Prop} {good : Prop} {tables after : Tables} {event : Event}
    (stepped : step tables event = some after) (starts : holds tables)
    (each : ∀ outcome, Unused tables event.fresh.uuid → answered tables event = .ok outcome →
      (holds outcome.tables ↔ good)) :
    holds after ↔ (Accepts tables event → good) := by
  obtain ⟨new, rfl⟩ := step_eq_some.mp stepped
  cases done : answered tables event with
  | error refused =>
    have same : (handle tables event).tables = tables := by
      rw [handle, done]
    rw [same]
    refine iff_of_true starts ?_
    rintro ⟨outcome, accepted⟩
    cases done.symm.trans accepted
  | ok outcome =>
    have same : (handle tables event).tables = outcome.tables := by
      rw [handle, done]
    rw [same, each outcome new done]
    have accepts : Accepts tables event := ⟨outcome, done⟩
    exact ⟨fun holds _ => holds, fun holds => holds accepts⟩

end OpenWebui.Channels
