import Mathlib.Data.List.Dedup
import OpenWebui.AccessGrants.Sharing
import OpenWebui.Base.Dict
import OpenWebui.Base.Json

/-! The tables behind channels, and the operations on channels, their members and their webhooks. -/

namespace OpenWebui.Channels

open AccessGrants (AccessGrant Payload get_groups_by_member_id get_group_user_ids_by_id)

structure Channel where
  user_id : String
  type : Option String

structure ChannelMember where
  channel_id : String
  user_id : String
  role : Option String
  is_active : Bool
  last_read_at : Option Int

structure ChannelWebhook where
  channel_id : String
  user_id : String
  name : String
  token : String

structure Message where
  user_id : String
  channel_id : Option String
  reply_to_id : Option String
  parent_id : Option String
  is_pinned : Bool
  pinned_at : Option Int
  pinned_by : Option String
  content : String
  data : Option Fields
  message_meta : Option Fields
  created_at : Int
  updated_at : Int

structure MessageReaction where
  user_id : String
  message_id : String
  name : String
  deriving DecidableEq

structure Tables where
  access : AccessGrants.Database
  channel : Dict String Channel
  member : List ChannelMember
  webhook : Dict String ChannelWebhook
  message : Dict String Message
  reaction : List MessageReaction

/-- What a request is given besides its arguments: the time, and generated ids. -/
structure Fresh where
  now : Int
  uuid : String
  token : String
  grant_uuid : Nat → String

structure CreateChannelForm where
  type : Option String
  access_grants : Option (List Payload)
  group_ids : Option (List String)
  user_ids : Option (List String)

/-- `channel.type in ['group', 'dm']`. -/
def Channel.closed (channel : Channel) : Bool :=
  decide (channel.type = some "group") || decide (channel.type = some "dm")

def ChannelMember.at (member : ChannelMember) (channel_id user_id : String) : Bool :=
  decide (member.channel_id = channel_id) && decide (member.user_id = user_id)

def changeFirst {α : Type} (found : α → Bool) (change : α → α) : List α → List α
  | [] => []
  | item :: rest =>
    if found item then change item :: rest else item :: changeFirst found change rest

def collect_unique_user_ids (access : AccessGrants.Database) (invited_by : String)
    (user_ids group_ids : Option (List String)) : List String :=
  (user_ids.getD [] ++ [invited_by] ++
    (group_ids.getD []).flatMap (get_group_user_ids_by_id access)).dedup

def newMember (now : Int) (channel_id user_id : String) : ChannelMember where
  channel_id := channel_id
  user_id := user_id
  role := none
  is_active := true
  last_read_at := some now

def create_membership_models (now : Int) (channel_id : String) (user_ids : List String) :
    List ChannelMember :=
  user_ids.map (newMember now channel_id)

def set_access_grants (fresh : Fresh) (access : AccessGrants.Database) (channel_id : String)
    (access_grants : List Payload) : AccessGrants.Database :=
  AccessGrants.set_access_grants fresh.grant_uuid fresh.now access "channel" channel_id access_grants

def channelOf (form : CreateChannelForm) (user_id : String) : Channel :=
  ⟨user_id, form.type.filter (fun type => decide (type ≠ ""))⟩

def firstMembers (fresh : Fresh) (access : AccessGrants.Database) (form : CreateChannelForm)
    (user_id : String) : List ChannelMember :=
  if (channelOf form user_id).closed then
    create_membership_models fresh.now fresh.uuid
      (collect_unique_user_ids access user_id form.user_ids form.group_ids)
  else []

def insert_new_channel (fresh : Fresh) (tables : Tables) (form : CreateChannelForm)
    (user_id : String) : Tables :=
  { tables with
    channel := tables.channel.set fresh.uuid (channelOf form user_id)
    member := tables.member ++ firstMembers fresh tables.access form user_id
    access := set_access_grants fresh tables.access fresh.uuid (form.access_grants.getD []) }

def get_members_by_channel_id (tables : Tables) (channel_id : String) : List ChannelMember :=
  tables.member.filter (fun member => decide (member.channel_id = channel_id))

def memberIds (tables : Tables) (channel_id : String) : List String :=
  (get_members_by_channel_id tables channel_id).map ChannelMember.user_id

def matchesUsers (tables : Tables) (unique_user_ids : List String) (channel_id : String) : Bool :=
  let members := memberIds tables channel_id
  !members.isEmpty && decide (members.length = unique_user_ids.length) &&
    decide ((members.filter (fun id => decide (id ∈ unique_user_ids))).length =
      unique_user_ids.length)

def get_dm_channel_by_user_ids (tables : Tables) (user_ids : List String) :
    Option (String × Channel) :=
  tables.channel.entries.find? (fun row =>
    matchesUsers tables user_ids.dedup row.1 && decide (row.2.type = some "dm"))

def add_members_to_channel (now : Int) (tables : Tables) (channel_id invited_by : String)
    (user_ids group_ids : Option (List String)) : Tables :=
  let requested_users := collect_unique_user_ids tables.access invited_by user_ids group_ids
  let new_user_ids := requested_users.filter (fun id => decide (id ∉ memberIds tables channel_id))
  { tables with member := tables.member ++ create_membership_models now channel_id new_user_ids }

def remove_members_from_channel (tables : Tables) (channel_id : String) (user_ids : List String) :
    Tables :=
  { tables with
    member := tables.member.filter (fun member =>
      !(decide (member.channel_id = channel_id) && decide (member.user_id ∈ user_ids))) }

def get_member_by_channel_and_user_id (tables : Tables) (channel_id user_id : String) :
    Option ChannelMember :=
  tables.member.find? (fun member => member.at channel_id user_id)

def is_user_channel_manager (tables : Tables) (channel_id user_id : String) : Bool :=
  (tables.channel.get? channel_id).any (fun channel => decide (channel.user_id = user_id)) ||
    tables.member.any (fun member =>
      member.at channel_id user_id && member.is_active && decide (member.role = some "manager"))

def is_user_channel_member (tables : Tables) (channel_id user_id : String) : Bool :=
  tables.member.any (fun member => member.at channel_id user_id && member.is_active)

def join_channel (now : Int) (tables : Tables) (channel_id user_id : String) : Tables :=
  match get_member_by_channel_and_user_id tables channel_id user_id with
  | some _ => tables
  | none => { tables with member := tables.member ++ [newMember now channel_id user_id] }

def update_member_last_read_at (now : Int) (tables : Tables) (channel_id user_id : String) :
    Tables :=
  { tables with
    member := changeFirst (fun member => member.at channel_id user_id)
      (fun member => { member with last_read_at := some now }) tables.member }

def update_member_active_status (tables : Tables) (channel_id user_id : String)
    (is_active : Bool) : Tables :=
  { tables with
    member := changeFirst (fun member => member.at channel_id user_id)
      (fun member => { member with is_active := is_active }) tables.member }

/-- `Channels.update_channel_by_id`, as far as the grants go. -/
def update_channel_by_id (fresh : Fresh) (tables : Tables) (id : String)
    (access_grants : Option (List Payload)) : Tables :=
  match access_grants with
  | none => tables
  | some grants => { tables with access := set_access_grants fresh tables.access id grants }

def delete_channel_by_id (tables : Tables) (id : String) : Tables :=
  { tables with
    access := { tables.access with
      access_grant := tables.access.access_grant.filter (fun grant =>
        !(decide (grant.resource_type = "channel") && decide (grant.resource_id = id))) }
    channel := tables.channel.erase id }

def insert_webhook (fresh : Fresh) (tables : Tables) (channel_id user_id name : String) : Tables :=
  { tables with
    webhook := tables.webhook.set fresh.uuid ⟨channel_id, user_id, name, fresh.token⟩ }

def get_webhook_by_id_and_token (tables : Tables) (webhook_id token : String) :
    Option ChannelWebhook :=
  (tables.webhook.get? webhook_id).filter (fun webhook => decide (webhook.token = token))

def update_webhook_by_id (tables : Tables) (webhook_id name : String) : Tables :=
  { tables with
    webhook := tables.webhook.modify webhook_id (fun webhook => { webhook with name := name }) }

def delete_webhook_by_id (tables : Tables) (webhook_id : String) : Tables :=
  { tables with webhook := tables.webhook.erase webhook_id }

structure MessageForm where
  content : String
  reply_to_id : Option String
  parent_id : Option String
  data : Option Fields
  message_meta : Option Fields

inductive Sender where
  | webhook (id name : String)
  | user (id : String)
  deriving DecidableEq

/-- A message as it is shown. The slim form has `filled` in place of the data. -/
structure Shown where
  id : String
  message : Message
  filled : Option Bool
  user : Option Sender

structure MessageReplyToResponse where
  shown : Shown
  reply_to_message : Option Shown

structure MessageResponse where
  shown : Shown
  reply_to_message : Option Shown
  latest_reply_at : Option Int
  reply_count : Nat
  reactions : List MessageReaction

structure MessageWithReactionsResponse where
  shown : Shown
  reactions : List MessageReaction

def given (id : Option String) : Option String := id.filter (fun id => decide (id ≠ ""))

def convert_data_to_bool (data : Option Fields) : Bool :=
  data.any (fun fields => fields.any (fun field => field.2.truthy))

def slim (shown : Shown) : Shown :=
  { shown with
    message := { shown.message with data := none }
    filled := some (convert_data_to_bool shown.message.data) }

def webhookInfo (message_meta : Option Fields) : Except PyError (Option String) :=
  match getField (message_meta.getD []) "webhook" with
  | .obj webhook =>
    match getField webhook "id" with
    | .str id => .ok (given (some id))
    | other => if other.truthy then .error .typeError else .ok none
  | other => if other.truthy then .error .attributeError else .ok none

def webhookSender (tables : Tables) (webhook_id : String) : Sender :=
  .webhook webhook_id
    (((tables.webhook.get? webhook_id).map ChannelWebhook.name).getD "Deleted Webhook")

def userSender (tables : Tables) (user_id : String) : Option Sender :=
  if tables.access.user.any (fun user => decide (user.id = user_id)) then some (.user user_id)
  else none

/-- The webhook, else the user of a message; `_resolve_user_info` and the look up in the users. -/
def senderOf (tables : Tables) (message : Message) : Except PyError (Option Sender) :=
  (webhookInfo message.message_meta).map (fun webhook_id =>
    (webhook_id.map (webhookSender tables)).or (userSender tables message.user_id))

/-- What a message replies to, as `read` finds it. -/
def replyOf (read : String → Except PyError (Option MessageReplyToResponse))
    (reply_to_id : Option String) : Except PyError (Option Shown) :=
  match given reply_to_id with
  | none => .ok none
  | some id => (read id).map (fun found => found.map (fun found => slim found.shown))

def response (tables : Tables) (read : String → Except PyError (Option MessageReplyToResponse))
    (row : String × Message) : Except PyError MessageReplyToResponse := do
  let reply_to_message ← replyOf read row.2.reply_to_id
  let user ← senderOf tables row.2
  .ok ⟨⟨row.1, row.2, none, user⟩, reply_to_message⟩

/-- `get_message_by_id` without the thread; what it replies to is read in the same way. -/
def get_message (tables : Tables) : Nat → String → Except PyError (Option MessageReplyToResponse)
  | 0, _ => .error .diverges
  | fuel + 1, id =>
    match tables.message.get? id with
    | none => .ok none
    | some message => (response tables (get_message tables fuel) (id, message)).map some

def enough (tables : Tables) : Nat := tables.message.keys.length + 1

def read (tables : Tables) (id : String) : Except PyError (Option MessageReplyToResponse) :=
  get_message tables (enough tables) id

/-- `order_by(created_at.desc())`. -/
def newestFirst (rows : List (String × Message)) : List (String × Message) :=
  rows.mergeSort (fun first second => decide (second.2.created_at ≤ first.2.created_at))

def readAll (tables : Tables) (rows : List (String × Message)) :
    Except PyError (List MessageReplyToResponse) :=
  rows.mapM (response tables (read tables))

def repliesTo (tables : Tables) (id : String) : List (String × Message) :=
  tables.message.entries.filter (fun row => decide (row.2.parent_id = some id))

def get_thread_replies_by_message_id (tables : Tables) (id : String) :
    Except PyError (List MessageReplyToResponse) :=
  readAll tables (newestFirst (repliesTo tables id))

def get_reactions_by_message_id (tables : Tables) (id : String) : List MessageReaction :=
  tables.reaction.filter (fun reaction => decide (reaction.message_id = id) &&
    tables.access.user.any (fun user => decide (user.id = reaction.user_id)))

def get_message_by_id (tables : Tables) (id : String) : Except PyError (Option MessageResponse) := do
  match ← read tables id with
  | none => .ok none
  | some found =>
    let thread_replies ← get_thread_replies_by_message_id tables id
    .ok (some
      { shown := found.shown
        reply_to_message := found.reply_to_message
        latest_reply_at := thread_replies.head?.map (fun reply => reply.shown.message.created_at)
        reply_count := thread_replies.length
        reactions := get_reactions_by_message_id tables id })

def page {α : Type} (skip limit : Nat) (rows : List α) : List α := (rows.drop skip).take limit

def topLevel (tables : Tables) (channel_id : String) : List (String × Message) :=
  tables.message.entries.filter (fun row =>
    decide (row.2.channel_id = some channel_id) && decide (row.2.parent_id = none))

def get_messages_by_channel_id (tables : Tables) (channel_id : String) (skip limit : Nat) :
    Except PyError (List MessageReplyToResponse) :=
  readAll tables (page skip limit (newestFirst (topLevel tables channel_id)))

def threadOf (tables : Tables) (channel_id parent_id : String) : List (String × Message) :=
  tables.message.entries.filter (fun row =>
    decide (row.2.channel_id = some channel_id) && decide (row.2.parent_id = some parent_id))

def threadPage (tables : Tables) (channel_id : String) (parent : String × Message)
    (skip limit : Nat) : List (String × Message) :=
  let all_messages := page skip limit (newestFirst (threadOf tables channel_id parent.1))
  if all_messages.length < limit then all_messages ++ [parent] else all_messages

def get_messages_by_parent_id (tables : Tables) (channel_id parent_id : String)
    (skip limit : Nat) : Except PyError (List MessageReplyToResponse) :=
  match (tables.message.get? parent_id).filter (fun message =>
    decide (message.channel_id = some channel_id)) with
  | none => .ok []
  | some message => readAll tables (threadPage tables channel_id (parent_id, message) skip limit)

def get_pinned_messages_by_channel_id (tables : Tables) (channel_id : String)
    (skip limit : Nat) : List (String × Message) :=
  page skip limit ((tables.message.entries.filter (fun row =>
    decide (row.2.channel_id = some channel_id) && row.2.is_pinned)).mergeSort
      (fun first second => decide (second.2.pinned_at.getD 0 ≤ first.2.pinned_at.getD 0)))

def get_thread_reply_count (tables : Tables) (id : String) : Nat × Option Int :=
  let replies := repliesTo tables id
  (replies.length, (replies.map (fun row => row.2.created_at)).max?)

def messageOf (fresh : Fresh) (form : MessageForm) (channel_id user_id : String) : Message where
  user_id := user_id
  channel_id := some channel_id
  reply_to_id := form.reply_to_id
  parent_id := form.parent_id
  is_pinned := false
  pinned_at := none
  pinned_by := none
  content := form.content
  data := form.data
  message_meta := form.message_meta
  created_at := fresh.now
  updated_at := fresh.now

def insert_new_message (fresh : Fresh) (tables : Tables) (form : MessageForm)
    (channel_id user_id : String) : Tables :=
  let joined := join_channel fresh.now tables channel_id user_id
  { joined with
    message := joined.message.set fresh.uuid (messageOf fresh form channel_id user_id) }

def updated (now : Int) (content : String) (data message_meta : Option Fields)
    (message : Message) : Message :=
  { message with
    content := content
    data := some (Assoc.merge (message.data.getD []) (data.getD []))
    message_meta := some (Assoc.merge (message.message_meta.getD []) (message_meta.getD []))
    updated_at := now }

def update_message_by_id (now : Int) (tables : Tables) (id content : String)
    (data message_meta : Option Fields) : Tables :=
  { tables with message := tables.message.modify id (updated now content data message_meta) }

def pinned (now : Int) (is_pinned : Bool) (pinned_by : String) (message : Message) : Message :=
  { message with
    is_pinned := is_pinned
    pinned_at := if is_pinned then some now else none
    pinned_by := if is_pinned then some pinned_by else none }

def update_is_pinned_by_id (now : Int) (tables : Tables) (id : String) (is_pinned : Bool)
    (pinned_by : String) : Tables :=
  { tables with message := tables.message.modify id (pinned now is_pinned pinned_by) }

def add_reaction_to_message (tables : Tables) (id user_id name : String) : Tables :=
  if (⟨user_id, id, name⟩ : MessageReaction) ∈ tables.reaction then tables
  else { tables with reaction := tables.reaction ++ [⟨user_id, id, name⟩] }

def remove_reaction_by_id_and_user_id_and_name (tables : Tables) (id user_id name : String) :
    Tables :=
  { tables with
    reaction := tables.reaction.filter (fun reaction =>
      decide (reaction ≠ ⟨user_id, id, name⟩)) }

def delete_message_by_id (tables : Tables) (id : String) : Tables :=
  { tables with
    message := tables.message.erase id
    reaction := tables.reaction.filter (fun reaction => decide (reaction.message_id ≠ id)) }

end OpenWebui.Channels
