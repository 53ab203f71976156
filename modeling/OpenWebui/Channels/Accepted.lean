import OpenWebui.Channels.Requests

/-! The requests that pass their checks, each with what it leaves. -/

namespace OpenWebui.Channels

open AccessGrants (Payload)

/-- A request that is accepted. -/
def Accepts (tables : Tables) (event : Event) : Prop :=
  ∃ outcome, answered tables event = .ok outcome

def Request.post? : Request → Option (String × MessageForm)
  | .post_new_message id form => some (id, form)
  | .model_response_handler id message_id parent_id thread model_id model_name =>
    some (id, responseForm message_id parent_id thread model_id model_name)
  | _ => none

/-- The outcome of a request that passes its checks. -/
inductive Accepted (tables : Tables) (event : Event) : Outcome → Prop where
  | reading (asked : event.request = .reading) : Accepted tables event (quiet tables)
  | dmOpened (user_id : String) (asked : event.request = .get_dm_channel_by_user_id user_id) :
    Accepted tables event (get_dm_channel_by_user_id event.fresh tables event.caller user_id)
  | dmCreated (form : CreateChannelForm) (user_ids : List String)
      (access_grants : Option (List Payload)) (asked : event.request = .create_new_channel form)
      (type : form.type = some "dm") (named : form.user_ids = some user_ids) :
    Accepted tables event (openDm event.fresh tables event.caller (event.caller.id :: user_ids)
      { form with access_grants := access_grants })
  | created (form : CreateChannelForm) (access_grants : Option (List Payload))
      (asked : event.request = .create_new_channel form) (type : form.type ≠ some "dm") :
    Accepted tables event (entering (insert_new_channel event.fresh tables
      { form with access_grants := access_grants } event.caller.id) event.fresh.uuid)
  | activated (id : String) (is_active : Bool)
      (asked : event.request = .update_is_active_member id is_active)
      (member : is_user_channel_member tables id event.caller.id = true) :
    Accepted tables event (quiet (update_member_active_status tables id event.caller.id is_active))
  | added (id : String) (user_ids group_ids : List String) (channel : Channel)
      (asked : event.request = .add_members_by_id id user_ids group_ids)
      (found : tables.channel.get? id = some channel) :
    Accepted tables event (quiet (add_members_to_channel event.fresh.now tables id event.caller.id
      (some user_ids) (some group_ids)))
  | removed (id : String) (user_ids : List String) (channel : Channel)
      (asked : event.request = .remove_members_by_id id user_ids)
      (found : tables.channel.get? id = some channel) :
    Accepted tables event (quiet (remove_members_from_channel tables id user_ids))
  | granted (id : String) (asking access_grants : Option (List Payload)) (channel : Channel)
      (asked : event.request = .update_channel_by_id id asking)
      (allowed : event.caller.allowedGrants "sharing.public_channels" asking = .ok access_grants)
      (found : tables.channel.get? id = some channel) :
    Accepted tables event (quiet (update_channel_by_id event.fresh tables id access_grants))
  | channelDeleted (id : String) (channel : Channel)
      (asked : event.request = .delete_channel_by_id id)
      (found : tables.channel.get? id = some channel) :
    Accepted tables event (quiet (delete_channel_by_id tables id))
  | listed (id : String) (channel : Channel) (asked : event.request = .get_channel_messages id)
      (found : tables.channel.get? id = some channel) :
    Accepted tables event (quiet (if channel.closed then tables
      else join_channel event.fresh.now tables id event.caller.id))
  | posted (id : String) (form : MessageForm) (channel : Channel)
      (asked : event.request.post? = some (id, form))
      (found : tables.channel.get? id = some channel)
      (use : mayUse tables event.caller id channel "write" false = true)
      (parent : checkReference tables id form.parent_id = .ok ())
      (reply : checkReference tables id form.reply_to_id = .ok ()) :
    Accepted tables event (posted event.fresh tables event.caller id channel form)
  | emitted (id message_id content : String) (finished : Bool) (output : Option Json)
      (message : MessageResponse)
      (asked : event.request = .channel_emitter id message_id content finished output)
      (named : findMessage tables id message_id = .ok message) :
    Accepted tables event (announce (update_message_by_id event.fresh.now tables message_id content
      (output.map (fun output => [("output", output)]))
      (doneMeta finished message.shown.message.message_meta)) id message_id (fun sent => sent))
  | pinned (id message_id : String) (is_pinned : Bool) (channel : Channel)
      (message : MessageResponse)
      (asked : event.request = .pin_channel_message id message_id is_pinned)
      (found : tables.channel.get? id = some channel)
      (named : findMessage tables id message_id = .ok message) :
    Accepted tables event (announce (update_is_pinned_by_id event.fresh.now tables message_id
      is_pinned event.caller.id) id message_id (pinnedForm tables))
  | updated (id message_id : String) (form : MessageForm) (channel : Channel)
      (message : MessageResponse)
      (asked : event.request = .update_message_by_id id message_id form)
      (found : tables.channel.get? id = some channel)
      (named : findMessage tables id message_id = .ok message) :
    Accepted tables event (announce (update_message_by_id event.fresh.now tables message_id
      form.content form.data form.message_meta) id message_id (fun sent => sent))
  | reacted (id message_id name : String) (channel : Channel) (message : MessageResponse)
      (asked : event.request = .add_reaction_to_message id message_id name)
      (found : tables.channel.get? id = some channel)
      (named : findMessage tables id message_id = .ok message) :
    Accepted tables event (announce (add_reaction_to_message tables message_id event.caller.id name)
      id message_id (fun sent => sent))
  | unreacted (id message_id name : String) (channel : Channel) (message : MessageResponse)
      (asked : event.request = .remove_reaction_by_id_and_user_id_and_name id message_id name)
      (found : tables.channel.get? id = some channel)
      (named : findMessage tables id message_id = .ok message) :
    Accepted tables event (announce (remove_reaction_by_id_and_user_id_and_name tables message_id
      event.caller.id name) id message_id (fun sent => sent))
  | deleted (id message_id : String) (channel : Channel) (message : MessageResponse)
      (asked : event.request = .delete_message_by_id id message_id)
      (found : tables.channel.get? id = some channel)
      (named : findMessage tables id message_id = .ok message) :
    Accepted tables event (withParent ⟨delete_message_by_id tables message_id, [⟨id, message⟩], [],
      .ok ()⟩ id message.shown.message.parent_id)
  | webhookMade (id name : String) (channel : Channel)
      (asked : event.request = .create_channel_webhook id name)
      (found : tables.channel.get? id = some channel) :
    Accepted tables event (quiet (insert_webhook event.fresh tables id event.caller.id name))
  | webhookRenamed (id webhook_id name : String)
      (asked : event.request = .update_channel_webhook id webhook_id name) :
    Accepted tables event (quiet (update_webhook_by_id tables webhook_id name))
  | webhookRemoved (id webhook_id : String)
      (asked : event.request = .delete_channel_webhook id webhook_id) :
    Accepted tables event (quiet (delete_webhook_by_id tables webhook_id))
  | webhookPosted (webhook_id token content : String) (webhook : ChannelWebhook)
      (channel : Channel) (asked : event.request = .post_webhook_message webhook_id token content)
      (enabled : event.enabled = true)
      (known : get_webhook_by_id_and_token tables webhook_id token = some webhook)
      (found : tables.channel.get? webhook.channel_id = some channel) :
    Accepted tables event (announce (insert_new_message event.fresh tables
      (webhookForm webhook_id content) webhook.channel_id webhook.user_id) webhook.channel_id
        event.fresh.uuid (fun message => { message with shown := { message.shown with
          user := some (.webhook webhook_id webhook.name) } }))
  | lastRead (channel_id : String) (asked : event.request = .last_read_at channel_id) :
    Accepted tables event (quiet (update_member_last_read_at event.fresh.now tables channel_id
      event.caller.id))

theorem ensure_ok {allowed : Bool} {status_code : Nat} {detail : String} {result : Unit}
    (passed : ensure allowed status_code detail = .ok result) : allowed = true := by
  unfold ensure at passed
  split at passed
  · assumption
  · cases passed

theorem findChannel_ok {tables : Tables} {id : String} {channel : Channel}
    (passed : findChannel tables id = .ok channel) : tables.channel.get? id = some channel := by
  unfold findChannel at passed
  split at passed
  · rename_i row found
    rw [found, Except.ok.inj passed]
  · cases passed

section Routes

variable {tables : Tables} {event : Event} {outcome : Outcome}

theorem accepted_post {id : String} {form : MessageForm}
    (asked : event.request.post? = some (id, form))
    (done : new_message_handler event.fresh tables event.caller id form = .ok outcome) :
    Accepted tables event outcome := by
  obtain ⟨channel, finds, done⟩ := bind_eq_ok.mp done
  obtain ⟨_, uses, done⟩ := bind_eq_ok.mp done
  obtain ⟨_, parent, done⟩ := bind_eq_ok.mp done
  obtain ⟨_, reply, done⟩ := bind_eq_ok.mp done
  obtain rfl := Except.ok.inj done
  exact .posted id form channel asked (findChannel_ok finds) (ensure_ok uses) parent reply

theorem accepted_change_webhook {id webhook_id : String} {changed : Tables}
    (done : changeWebhook tables event.caller id webhook_id changed = .ok outcome) :
    outcome = quiet changed := by
  obtain ⟨_, _, done⟩ := bind_eq_ok.mp done
  obtain ⟨_, _, done⟩ := bind_eq_ok.mp done
  obtain ⟨_, _, done⟩ := bind_eq_ok.mp done
  exact (Except.ok.inj done).symm

theorem accepted_react {id message_id : String} {change : Tables → Tables}
    (done : react tables event.caller id message_id change = .ok outcome) :
    ∃ channel message, tables.channel.get? id = some channel ∧
      findMessage tables id message_id = .ok message ∧
        outcome = announce (change tables) id message_id (fun sent => sent) := by
  obtain ⟨channel, finds, done⟩ := bind_eq_ok.mp done
  obtain ⟨_, _, done⟩ := bind_eq_ok.mp done
  obtain ⟨message, named, done⟩ := bind_eq_ok.mp done
  exact ⟨channel, message, findChannel_ok finds, named, (Except.ok.inj done).symm⟩

theorem accepted_create {form : CreateChannelForm}
    (asked : event.request = .create_new_channel form)
    (done : create_new_channel event.fresh tables event.caller form = .ok outcome) :
    Accepted tables event outcome := by
  obtain ⟨_, _, done⟩ := bind_eq_ok.mp done
  obtain ⟨access_grants, _, done⟩ := bind_eq_ok.mp done
  dsimp only at done
  split at done
  · rename_i type
    split at done
    · cases done
    · rename_i user_ids named
      obtain rfl := Except.ok.inj done
      exact .dmCreated form user_ids access_grants asked type named
  · rename_i type
    obtain rfl := Except.ok.inj done
    exact .created form access_grants asked type

theorem accepted_of_answered (done : answered tables event = .ok outcome) :
    Accepted tables event outcome := by
  obtain ⟨_, checks, done⟩ := bind_eq_ok.mp done
  cases asked : event.request with
  | reading =>
    rw [asked] at done
    obtain rfl := Except.ok.inj done
    exact .reading asked
  | get_dm_channel_by_user_id user_id =>
    rw [asked] at done
    obtain rfl := Except.ok.inj done
    exact .dmOpened user_id asked
  | create_new_channel form =>
    rw [asked] at done
    exact accepted_create asked done
  | update_is_active_member id is_active =>
    rw [asked] at done
    obtain ⟨_, _, done⟩ := bind_eq_ok.mp done
    obtain ⟨_, member, done⟩ := bind_eq_ok.mp done
    obtain rfl := Except.ok.inj done
    exact .activated id is_active asked (ensure_ok member)
  | add_members_by_id id user_ids group_ids =>
    rw [asked] at done
    obtain ⟨channel, finds, done⟩ := bind_eq_ok.mp done
    obtain ⟨_, _, done⟩ := bind_eq_ok.mp done
    obtain rfl := Except.ok.inj done
    exact .added id user_ids group_ids channel asked (findChannel_ok finds)
  | remove_members_by_id id user_ids =>
    rw [asked] at done
    obtain ⟨channel, finds, done⟩ := bind_eq_ok.mp done
    obtain ⟨_, _, done⟩ := bind_eq_ok.mp done
    obtain rfl := Except.ok.inj done
    exact .removed id user_ids channel asked (findChannel_ok finds)
  | update_channel_by_id id asking =>
    rw [asked] at done
    obtain ⟨channel, finds, done⟩ := bind_eq_ok.mp done
    obtain ⟨_, _, done⟩ := bind_eq_ok.mp done
    obtain ⟨access_grants, allowed, done⟩ := bind_eq_ok.mp done
    obtain rfl := Except.ok.inj done
    exact .granted id asking access_grants channel asked (raised_ok allowed) (findChannel_ok finds)
  | delete_channel_by_id id =>
    rw [asked] at done
    obtain ⟨channel, finds, done⟩ := bind_eq_ok.mp done
    obtain ⟨_, _, done⟩ := bind_eq_ok.mp done
    obtain rfl := Except.ok.inj done
    exact .channelDeleted id channel asked (findChannel_ok finds)
  | get_channel_messages id =>
    rw [asked] at done
    obtain ⟨channel, finds, done⟩ := bind_eq_ok.mp done
    obtain ⟨_, _, done⟩ := bind_eq_ok.mp done
    obtain rfl := Except.ok.inj done
    exact .listed id channel asked (findChannel_ok finds)
  | post_new_message id form =>
    rw [asked] at done
    exact accepted_post (by rw [asked]; rfl) done
  | model_response_handler id message_id parent_id thread model_id model_name =>
    rw [asked] at done
    exact accepted_post (by rw [asked]; rfl) done
  | channel_emitter id message_id content finished output =>
    rw [asked] at done
    obtain ⟨message, named, done⟩ := bind_eq_ok.mp done
    obtain rfl := Except.ok.inj done
    exact .emitted id message_id content finished output message asked named
  | pin_channel_message id message_id is_pinned =>
    rw [asked] at done
    obtain ⟨channel, finds, done⟩ := bind_eq_ok.mp done
    obtain ⟨_, _, done⟩ := bind_eq_ok.mp done
    obtain ⟨message, named, done⟩ := bind_eq_ok.mp done
    obtain rfl := Except.ok.inj done
    exact .pinned id message_id is_pinned channel message asked (findChannel_ok finds) named
  | update_message_by_id id message_id form =>
    rw [asked] at done
    obtain ⟨channel, finds, done⟩ := bind_eq_ok.mp done
    obtain ⟨message, named, done⟩ := bind_eq_ok.mp done
    obtain ⟨_, _, done⟩ := bind_eq_ok.mp done
    obtain ⟨_, _, done⟩ := bind_eq_ok.mp done
    obtain rfl := Except.ok.inj done
    exact .updated id message_id form channel message asked (findChannel_ok finds) named
  | add_reaction_to_message id message_id name =>
    rw [asked] at done
    obtain ⟨channel, message, found, named, rfl⟩ := @accepted_react _ _ _ id message_id
      (fun tables => add_reaction_to_message tables message_id event.caller.id name) done
    exact .reacted id message_id name channel message asked found named
  | remove_reaction_by_id_and_user_id_and_name id message_id name =>
    rw [asked] at done
    obtain ⟨channel, message, found, named, rfl⟩ := @accepted_react _ _ _ id message_id
      (fun tables => remove_reaction_by_id_and_user_id_and_name tables message_id event.caller.id
        name) done
    exact .unreacted id message_id name channel message asked found named
  | delete_message_by_id id message_id =>
    rw [asked] at done
    obtain ⟨channel, finds, done⟩ := bind_eq_ok.mp done
    obtain ⟨message, named, done⟩ := bind_eq_ok.mp done
    obtain ⟨_, _, done⟩ := bind_eq_ok.mp done
    obtain ⟨_, _, done⟩ := bind_eq_ok.mp done
    obtain rfl := Except.ok.inj done
    exact .deleted id message_id channel message asked (findChannel_ok finds) named
  | create_channel_webhook id name =>
    rw [asked] at done
    obtain ⟨channel, finds, done⟩ := bind_eq_ok.mp done
    obtain ⟨_, _, done⟩ := bind_eq_ok.mp done
    obtain rfl := Except.ok.inj done
    exact .webhookMade id name channel asked (findChannel_ok finds)
  | update_channel_webhook id webhook_id name =>
    rw [asked] at done
    obtain rfl := accepted_change_webhook done
    exact .webhookRenamed id webhook_id name asked
  | delete_channel_webhook id webhook_id =>
    rw [asked] at done
    obtain rfl := accepted_change_webhook done
    exact .webhookRemoved id webhook_id asked
  | post_webhook_message webhook_id token content =>
    rw [asked] at done
    change post_webhook_message event.fresh tables webhook_id token content = .ok outcome at done
    unfold post_webhook_message at done
    split at done
    · cases done
    · rename_i webhook known
      obtain ⟨channel, finds, done⟩ := bind_eq_ok.mp done
      obtain rfl := Except.ok.inj done
      have enabled : event.enabled = true := by
        rw [checkRequest, asked] at checks
        exact ensure_ok checks
      exact .webhookPosted webhook_id token content webhook channel asked enabled known
        (findChannel_ok finds)
  | last_read_at channel_id =>
    rw [asked] at done
    obtain rfl := Except.ok.inj done
    exact .lastRead channel_id asked

theorem handle_cases (tables : Tables) (event : Event) :
    ((handle tables event).tables = tables ∧ (handle tables event).emitted = [] ∧
        (handle tables event).entered = [] ∧ ∃ refused, answered tables event = .error refused) ∨
      Accepted tables event (handle tables event) := by
  unfold handle
  cases done : answered tables event with
  | error refused => exact Or.inl ⟨rfl, rfl, rfl, refused, rfl⟩
  | ok outcome => exact Or.inr (accepted_of_answered done)

end Routes

end OpenWebui.Channels
