import OpenWebui.Channels.Messages
import OpenWebui.Utils.Routes

/-! The channel requests: the checks of each route, what it writes, whom it lets into the room of the
channel and what it emits there. -/

namespace OpenWebui.Channels

open AccessGrants (Payload has_access get_grants_by_resource isPublic)

structure Emission where
  channel_id : String
  message : MessageResponse

/-- What a request leaves, and how it is answered. The sessions of the users that are entered get
into the room of the channel. -/
structure Outcome where
  tables : Tables
  emitted : List Emission
  entered : List (String × List String)
  answer : Except HTTPException Unit

inductive Request where
  | reading
  | get_dm_channel_by_user_id (user_id : String)
  | create_new_channel (form : CreateChannelForm)
  | update_is_active_member (id : String) (is_active : Bool)
  | add_members_by_id (id : String) (user_ids group_ids : List String)
  | remove_members_by_id (id : String) (user_ids : List String)
  | update_channel_by_id (id : String) (access_grants : Option (List Payload))
  | delete_channel_by_id (id : String)
  | get_channel_messages (id : String)
  | post_new_message (id : String) (form : MessageForm)
  | model_response_handler (id message_id : String) (parent_id : Option String) (thread : Bool)
      (model_id model_name : String)
  | channel_emitter (id message_id content : String) (finished : Bool) (output : Option Json)
  | pin_channel_message (id message_id : String) (is_pinned : Bool)
  | update_message_by_id (id message_id : String) (form : MessageForm)
  | add_reaction_to_message (id message_id name : String)
  | remove_reaction_by_id_and_user_id_and_name (id message_id name : String)
  | delete_message_by_id (id message_id : String)
  | create_channel_webhook (id name : String)
  | update_channel_webhook (id webhook_id name : String)
  | delete_channel_webhook (id webhook_id : String)
  | post_webhook_message (webhook_id token content : String)
  | last_read_at (channel_id : String)

/-- A request, with the setting `channels.enable`. -/
structure Event where
  enabled : Bool
  caller : Caller
  fresh : Fresh
  request : Request

def refuse {α : Type} (status_code : Nat) (detail : String) : Except HTTPException α :=
  .error ⟨status_code, detail⟩

def ensure (allowed : Bool) (status_code : Nat) (detail : String) : Except HTTPException Unit :=
  if allowed then .ok () else refuse status_code detail

def checkEnabled (event : Event) : Except HTTPException Unit :=
  ensure event.enabled 403 (ERROR_MESSAGES.FEATURE_DISABLED "Channels")

def check_channels_access (event : Event) : Except HTTPException Unit := do
  checkEnabled event
  if event.caller.role = "admin" then .ok ()
  else
    let allowed ← raised (event.caller.has_permission "features.channels")
    ensure allowed 401 ERROR_MESSAGES.UNAUTHORIZED

def findChannel (tables : Tables) (id : String) : Except HTTPException Channel :=
  match tables.channel.get? id with
  | some channel => .ok channel
  | none => refuse 404 ERROR_MESSAGES.NOT_FOUND

def channel_has_access (tables : Tables) (user_id channel_id permission : String)
    (strict : Bool) : Bool :=
  has_access tables.access user_id "channel" channel_id permission none ||
    (!strict && decide (permission = "write") &&
      (get_grants_by_resource tables.access "channel" channel_id).any (fun grant =>
        isPublic grant && decide (grant.permission = "write")))

def mayUse (tables : Tables) (caller : Caller) (id : String) (channel : Channel)
    (permission : String) (strict : Bool) : Bool :=
  if channel.closed then is_user_channel_member tables id caller.id
  else decide (caller.role = "admin") || channel_has_access tables caller.id id permission strict

def checkUse (tables : Tables) (caller : Caller) (id : String) (channel : Channel)
    (permission : String) (strict : Bool) : Except HTTPException Unit :=
  ensure (mayUse tables caller id channel permission strict) 403 ERROR_MESSAGES.DEFAULT

def checkOwner (caller : Caller) (channel : Channel) : Except HTTPException Unit :=
  ensure (decide (channel.user_id = caller.id) || decide (caller.role = "admin")) 403
    ERROR_MESSAGES.DEFAULT

def checkManager (tables : Tables) (caller : Caller) (id : String) : Except HTTPException Unit :=
  ensure (is_user_channel_manager tables id caller.id || decide (caller.role = "admin")) 403
    ERROR_MESSAGES.UNAUTHORIZED

def findMessage (tables : Tables) (id message_id : String) :
    Except HTTPException MessageResponse := do
  match ← raised (get_message_by_id tables message_id) with
  | none => refuse 404 ERROR_MESSAGES.NOT_FOUND
  | some message =>
    if message.shown.message.channel_id = some id then .ok message
    else refuse 400 ERROR_MESSAGES.DEFAULT

def checkAuthor (caller : Caller) (message : MessageResponse) : Except HTTPException Unit :=
  ensure (decide (caller.role = "admin") || decide (message.shown.message.user_id = caller.id)) 403
    ERROR_MESSAGES.DEFAULT

def checkReference (tables : Tables) (id : String) (reference : Option String) :
    Except HTTPException Unit :=
  match given reference with
  | none => .ok ()
  | some message_id =>
    match read tables message_id with
    | .ok (some found) =>
      ensure (decide (found.shown.message.channel_id = some id)) 400 ERROR_MESSAGES.DEFAULT
    | _ => refuse 400 ERROR_MESSAGES.DEFAULT

def quiet (tables : Tables) : Outcome := ⟨tables, [], [], .ok ()⟩

def entering (tables : Tables) (id : String) : Outcome :=
  ⟨tables, [], [(id, memberIds tables id)], .ok ()⟩

def announce (tables : Tables) (id message_id : String) (sent : MessageResponse → MessageResponse) :
    Outcome :=
  match get_message_by_id tables message_id with
  | .ok (some message) => ⟨tables, [⟨id, sent message⟩], [], .ok ()⟩
  | .ok none => quiet tables
  | .error _ => ⟨tables, [], [], refuse 400 ERROR_MESSAGES.DEFAULT⟩

def withParent (outcome : Outcome) (id : String) (parent_id : Option String) : Outcome :=
  match given parent_id with
  | none => outcome
  | some parent_id =>
    let parent := announce outcome.tables id parent_id (fun message => message)
    { outcome with emitted := outcome.emitted ++ parent.emitted, answer := parent.answer }

def activateMembers (tables : Tables) (id : String) : Tables :=
  (get_members_by_channel_id tables id).foldl (fun tables member =>
    if member.is_active then tables
    else update_member_active_status tables id member.user_id true) tables

def postedTables (fresh : Fresh) (tables : Tables) (caller : Caller) (id : String)
    (channel : Channel) (form : MessageForm) : Tables :=
  let inserted := insert_new_message fresh tables form id caller.id
  if channel.closed then activateMembers inserted id else inserted

def posted (fresh : Fresh) (tables : Tables) (caller : Caller) (id : String) (channel : Channel)
    (form : MessageForm) : Outcome :=
  let tables := postedTables fresh tables caller id channel form
  match get_message_by_id tables fresh.uuid with
  | .ok (some message) =>
    withParent ⟨tables, [⟨id, message⟩], [], .ok ()⟩ id message.shown.message.parent_id
  | _ => ⟨tables, [], [], refuse 400 ERROR_MESSAGES.DEFAULT⟩

section Routes

variable (fresh : Fresh) (tables : Tables) (caller : Caller)

def openDm (user_ids : List String) (form : CreateChannelForm) : Outcome :=
  match get_dm_channel_by_user_ids tables user_ids with
  | some existing =>
    ⟨update_member_active_status tables existing.1 caller.id true, [],
      [(existing.1, memberIds tables existing.1)], .ok ()⟩
  | none => entering (insert_new_channel fresh tables form caller.id) fresh.uuid

def get_dm_channel_by_user_id (user_id : String) : Outcome :=
  openDm fresh tables caller [caller.id, user_id] ⟨some "dm", none, none, some [user_id]⟩

def create_new_channel (form : CreateChannelForm) : Except HTTPException Outcome := do
  ensure (decide (form.type = some "group") || decide (form.type = some "dm") ||
    decide (caller.role = "admin")) 401 ERROR_MESSAGES.UNAUTHORIZED
  let access_grants ← raised (caller.allowedGrants "sharing.public_channels" form.access_grants)
  let form := { form with access_grants := access_grants }
  if form.type = some "dm" then
    match form.user_ids with
    | none => refuse 400 ERROR_MESSAGES.DEFAULT
    | some user_ids => .ok (openDm fresh tables caller (caller.id :: user_ids) form)
  else .ok (entering (insert_new_channel fresh tables form caller.id) fresh.uuid)

def update_is_active_member (id : String) (is_active : Bool) : Except HTTPException Outcome := do
  let _ ← findChannel tables id
  ensure (is_user_channel_member tables id caller.id) 404 ERROR_MESSAGES.NOT_FOUND
  .ok (quiet (update_member_active_status tables id caller.id is_active))

def add_members_by_id (id : String) (user_ids group_ids : List String) :
    Except HTTPException Outcome := do
  let channel ← findChannel tables id
  checkOwner caller channel
  .ok (quiet (add_members_to_channel fresh.now tables id caller.id (some user_ids) (some group_ids)))

def remove_members_by_id (id : String) (user_ids : List String) :
    Except HTTPException Outcome := do
  let channel ← findChannel tables id
  checkOwner caller channel
  .ok (quiet (remove_members_from_channel tables id user_ids))

def updateChannel (id : String) (access_grants : Option (List Payload)) :
    Except HTTPException Outcome := do
  let channel ← findChannel tables id
  checkOwner caller channel
  let access_grants ← raised (caller.allowedGrants "sharing.public_channels" access_grants)
  .ok (quiet (update_channel_by_id fresh tables id access_grants))

def deleteChannel (id : String) : Except HTTPException Outcome := do
  let channel ← findChannel tables id
  checkOwner caller channel
  .ok (quiet (delete_channel_by_id tables id))

def openChannel (id : String) : Except HTTPException Outcome := do
  let channel ← findChannel tables id
  checkUse tables caller id channel "read" true
  .ok (quiet (if channel.closed then tables else join_channel fresh.now tables id caller.id))

def new_message_handler (id : String) (form : MessageForm) : Except HTTPException Outcome := do
  let channel ← findChannel tables id
  checkUse tables caller id channel "write" false
  checkReference tables id form.parent_id
  checkReference tables id form.reply_to_id
  .ok (posted fresh tables caller id channel form)

def responseForm (message_id : String) (parent_id : Option String) (thread : Bool)
    (model_id model_name : String) : MessageForm where
  content := ""
  reply_to_id := none
  parent_id := (given parent_id).or (if thread then some message_id else none)
  data := some []
  message_meta := some [("model_id", .str model_id), ("model_name", .str model_name)]

def doneMeta (finished : Bool) (message_meta : Option Fields) : Option Fields :=
  if finished then some (Assoc.set (message_meta.getD []) "done" (.bool true)) else none

def channel_emitter (id message_id content : String) (finished : Bool) (output : Option Json) :
    Except HTTPException Outcome := do
  let message ← findMessage tables id message_id
  let updated := update_message_by_id fresh.now tables message_id content
    (output.map (fun output => [("output", output)]))
    (doneMeta finished message.shown.message.message_meta)
  .ok (announce updated id message_id (fun message => message))

def pinnedForm (tables : Tables) (message : MessageResponse) : MessageResponse :=
  { message with
    shown := { slim message.shown with
      user := userSender tables message.shown.message.user_id } }

def pin_channel_message (id message_id : String) (is_pinned : Bool) :
    Except HTTPException Outcome := do
  let channel ← findChannel tables id
  checkUse tables caller id channel "write" true
  let _ ← findMessage tables id message_id
  .ok (announce (update_is_pinned_by_id fresh.now tables message_id is_pinned caller.id) id
    message_id (pinnedForm tables))

def updateMessage (id message_id : String) (form : MessageForm) :
    Except HTTPException Outcome := do
  let channel ← findChannel tables id
  let message ← findMessage tables id message_id
  checkUse tables caller id channel "write" false
  checkAuthor caller message
  .ok (announce (update_message_by_id fresh.now tables message_id form.content form.data
    form.message_meta) id message_id (fun message => message))

def react (id message_id : String) (change : Tables → Tables) : Except HTTPException Outcome := do
  let channel ← findChannel tables id
  checkUse tables caller id channel "write" false
  let _ ← findMessage tables id message_id
  .ok (announce (change tables) id message_id (fun message => message))

def deleteMessage (id message_id : String) : Except HTTPException Outcome := do
  let channel ← findChannel tables id
  let message ← findMessage tables id message_id
  checkUse tables caller id channel "write" false
  checkAuthor caller message
  .ok (withParent ⟨delete_message_by_id tables message_id, [⟨id, message⟩], [], .ok ()⟩ id
    message.shown.message.parent_id)

def create_channel_webhook (id name : String) : Except HTTPException Outcome := do
  let _ ← findChannel tables id
  checkManager tables caller id
  .ok (quiet (insert_webhook fresh tables id caller.id name))

def changeWebhook (id webhook_id : String) (changed : Tables) : Except HTTPException Outcome := do
  let _ ← findChannel tables id
  checkManager tables caller id
  ensure ((tables.webhook.get? webhook_id).any (fun webhook => decide (webhook.channel_id = id)))
    404 ERROR_MESSAGES.NOT_FOUND
  .ok (quiet changed)

def webhookForm (webhook_id content : String) : MessageForm where
  content := content
  reply_to_id := none
  parent_id := none
  data := none
  message_meta := some [("webhook", .obj [("id", .str webhook_id)])]

def post_webhook_message (webhook_id token content : String) : Except HTTPException Outcome := do
  match get_webhook_by_id_and_token tables webhook_id token with
  | none => refuse 401 ERROR_MESSAGES.INVALID_URL
  | some webhook =>
    let _ ← findChannel tables webhook.channel_id
    let inserted := insert_new_message fresh tables (webhookForm webhook_id content)
      webhook.channel_id webhook.user_id
    .ok (announce inserted webhook.channel_id fresh.uuid (fun message =>
      { message with shown := { message.shown with
        user := some (.webhook webhook_id webhook.name) } }))

end Routes

def route (tables : Tables) (fresh : Fresh) (caller : Caller) :
    Request → Except HTTPException Outcome
  | .reading => .ok (quiet tables)
  | .get_dm_channel_by_user_id user_id => .ok (get_dm_channel_by_user_id fresh tables caller user_id)
  | .create_new_channel form => create_new_channel fresh tables caller form
  | .update_is_active_member id is_active => update_is_active_member tables caller id is_active
  | .add_members_by_id id user_ids group_ids =>
    add_members_by_id fresh tables caller id user_ids group_ids
  | .remove_members_by_id id user_ids => remove_members_by_id tables caller id user_ids
  | .update_channel_by_id id access_grants => updateChannel fresh tables caller id access_grants
  | .delete_channel_by_id id => deleteChannel tables caller id
  | .get_channel_messages id => openChannel fresh tables caller id
  | .post_new_message id form => new_message_handler fresh tables caller id form
  | .model_response_handler id message_id parent_id thread model_id model_name =>
    new_message_handler fresh tables caller id
      (responseForm message_id parent_id thread model_id model_name)
  | .channel_emitter id message_id content finished output =>
    channel_emitter fresh tables id message_id content finished output
  | .pin_channel_message id message_id is_pinned =>
    pin_channel_message fresh tables caller id message_id is_pinned
  | .update_message_by_id id message_id form => updateMessage fresh tables caller id message_id form
  | .add_reaction_to_message id message_id name =>
    react tables caller id message_id (fun tables =>
      add_reaction_to_message tables message_id caller.id name)
  | .remove_reaction_by_id_and_user_id_and_name id message_id name =>
    react tables caller id message_id (fun tables =>
      remove_reaction_by_id_and_user_id_and_name tables message_id caller.id name)
  | .delete_message_by_id id message_id => deleteMessage tables caller id message_id
  | .create_channel_webhook id name => create_channel_webhook fresh tables caller id name
  | .update_channel_webhook id webhook_id name =>
    changeWebhook tables caller id webhook_id (update_webhook_by_id tables webhook_id name)
  | .delete_channel_webhook id webhook_id =>
    changeWebhook tables caller id webhook_id (delete_webhook_by_id tables webhook_id)
  | .post_webhook_message webhook_id token content =>
    post_webhook_message fresh tables webhook_id token content
  | .last_read_at channel_id =>
    .ok (quiet (update_member_last_read_at fresh.now tables channel_id caller.id))

def checkRequest (event : Event) : Except HTTPException Unit :=
  match event.request with
  | .post_webhook_message _ _ _ => checkEnabled event
  | .model_response_handler _ _ _ _ _ _ => .ok ()
  | .channel_emitter _ _ _ _ _ => .ok ()
  | .last_read_at _ => .ok ()
  | _ => check_channels_access event

def answered (tables : Tables) (event : Event) : Except HTTPException Outcome := do
  checkRequest event
  route tables event.fresh event.caller event.request

def handle (tables : Tables) (event : Event) : Outcome :=
  match answered tables event with
  | .ok outcome => outcome
  | .error refused => ⟨tables, [], [], .error refused⟩

def unused (tables : Tables) (uuid : String) : Bool :=
  decide (uuid ≠ "") && decide (uuid ∉ tables.channel.keys) && decide (uuid ∉ tables.webhook.keys) &&
    decide (uuid ∉ tables.message.keys) &&
    tables.member.all (fun member => decide (member.channel_id ≠ uuid)) &&
    tables.message.entries.all (fun row =>
      decide (row.2.parent_id ≠ some uuid) && decide (row.2.reply_to_id ≠ some uuid) &&
        decide (row.2.channel_id ≠ some uuid)) &&
    tables.reaction.all (fun reaction => decide (reaction.message_id ≠ uuid))

def step (tables : Tables) (event : Event) : Option Tables :=
  if unused tables event.fresh.uuid then some (handle tables event).tables else none

end OpenWebui.Channels
