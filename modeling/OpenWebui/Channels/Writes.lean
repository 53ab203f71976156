import OpenWebui.Channels.Members

/-! What a request does to the stored messages. -/

namespace OpenWebui.Channels

def Request.silent : Request → Bool
  | .post_new_message _ _ => false
  | .model_response_handler _ _ _ _ _ _ => false
  | .channel_emitter _ _ _ _ _ => false
  | .pin_channel_message _ _ _ => false
  | .update_message_by_id _ _ _ => false
  | .delete_message_by_id _ _ => false
  | .post_webhook_message _ _ _ => false
  | _ => true

/-- What a request does to the messages. -/
inductive MessagesChange (tables : Tables) (event : Event) (after : Tables) : Prop where
  | same (silent : event.request.silent = true) (messages : after.message = tables.message)
  | posted (id : String) (form : MessageForm) (asked : event.request.post? = some (id, form))
      (parent : checkReference tables id form.parent_id = .ok ())
      (reply : checkReference tables id form.reply_to_id = .ok ())
      (messages : after.message =
        tables.message.set event.fresh.uuid (messageOf event.fresh form id event.caller.id))
  | webhookPosted (webhook_id token content : String) (webhook : ChannelWebhook)
      (asked : event.request = .post_webhook_message webhook_id token content)
      (known : get_webhook_by_id_and_token tables webhook_id token = some webhook)
      (messages : after.message = tables.message.set event.fresh.uuid
        (messageOf event.fresh (webhookForm webhook_id content) webhook.channel_id webhook.user_id))
  | updated (id message_id : String) (form : MessageForm) (message : Message)
      (asked : event.request = .update_message_by_id id message_id form)
      (found : tables.message.get? message_id = some message)
      (inside : message.channel_id = some id)
      (messages : after.message = tables.message.modify message_id
        (updated event.fresh.now form.content form.data form.message_meta))
  | emitted (id message_id content : String) (finished : Bool) (output : Option Json)
      (message : Message)
      (asked : event.request = .channel_emitter id message_id content finished output)
      (found : tables.message.get? message_id = some message)
      (inside : message.channel_id = some id)
      (messages : after.message = tables.message.modify message_id (updated event.fresh.now content
        (output.map (fun output => [("output", output)]))
        (doneMeta finished message.message_meta)))
  | pinned (id message_id : String) (is_pinned : Bool) (message : Message)
      (asked : event.request = .pin_channel_message id message_id is_pinned)
      (found : tables.message.get? message_id = some message)
      (inside : message.channel_id = some id)
      (messages : after.message = tables.message.modify message_id
        (pinned event.fresh.now is_pinned event.caller.id))
  | deleted (id message_id : String) (message : Message)
      (asked : event.request = .delete_message_by_id id message_id)
      (found : tables.message.get? message_id = some message)
      (inside : message.channel_id = some id)
      (messages : after.message = tables.message.erase message_id)

section Lookup

variable {tables : Tables}

theorem given_eq_some {reference : Option String} {other : String} :
    given reference = some other ↔ reference = some other ∧ other ≠ "" := by
  unfold given
  rw [Option.filter_eq_some_iff, decide_eq_true_eq]

theorem get_message_some {fuel : Nat} {id : String} {found : MessageReplyToResponse}
    (reads : get_message tables fuel id = .ok (some found)) :
    tables.message.get? id = some found.shown.message ∧ found.shown.id = id := by
  cases fuel with
  | zero => cases reads
  | succ fuel =>
    unfold get_message at reads
    split at reads
    · cases Except.ok.inj reads
    · rename_i message stored
      obtain ⟨answer, answers, same⟩ := map_eq_ok.mp reads
      obtain rfl := Option.some.inj same
      obtain ⟨reply, _, answers⟩ := bind_eq_ok.mp answers
      obtain ⟨user, _, answers⟩ := bind_eq_ok.mp answers
      obtain rfl := Except.ok.inj answers
      exact ⟨stored, rfl⟩

theorem get_message_by_id_some {id : String} {found : MessageResponse}
    (reads : get_message_by_id tables id = .ok (some found)) :
    ∃ read_found, read tables id = .ok (some read_found) ∧ found.shown = read_found.shown ∧
      found.reply_to_message = read_found.reply_to_message ∧
      ∃ replies, get_thread_replies_by_message_id tables id = .ok replies ∧
        found.reply_count = replies.length := by
  obtain ⟨read_found, reading, reads⟩ := bind_eq_ok.mp reads
  cases read_found with
  | none => cases Except.ok.inj reads
  | some read_found =>
    obtain ⟨replies, threads, reads⟩ := bind_eq_ok.mp reads
    obtain rfl := Option.some.inj (Except.ok.inj reads)
    exact ⟨read_found, reading, rfl, rfl, replies, threads, rfl⟩

theorem findMessage_ok {id message_id : String} {message : MessageResponse}
    (named : findMessage tables id message_id = .ok message) :
    tables.message.get? message_id = some message.shown.message ∧
      message.shown.message.channel_id = some id := by
  obtain ⟨answer, reads, named⟩ := bind_eq_ok.mp named
  cases answer with
  | none => cases named
  | some found =>
    dsimp only at named
    split at named
    · rename_i inside
      obtain rfl := Except.ok.inj named
      obtain ⟨read_found, reading, same, _⟩ := get_message_by_id_some (raised_ok reads)
      rw [same] at inside ⊢
      exact ⟨(get_message_some reading).1, inside⟩
    · cases named

theorem checkReference_ok {id other : String} {reference : Option String}
    (passed : checkReference tables id reference = .ok ()) (named : given reference = some other) :
    ∃ message, tables.message.get? other = some message ∧ message.channel_id = some id := by
  unfold checkReference at passed
  rw [named] at passed
  dsimp only at passed
  split at passed
  · rename_i found reads
    exact ⟨found.shown.message, (get_message_some reads).1, of_decide_eq_true (ensure_ok passed)⟩
  · cases passed

end Lookup

theorem webhookInfo_congr {first second : Option Fields}
    (same : getField (first.getD []) "webhook" = getField (second.getD []) "webhook") :
    webhookInfo first = webhookInfo second := by
  unfold webhookInfo
  rw [same]

theorem getField_doneMeta (finished : Bool) (message_meta : Option Fields) {key : String}
    (other : key ≠ "done") :
    getField (Assoc.merge (message_meta.getD []) ((doneMeta finished message_meta).getD [])) key =
      getField (message_meta.getD []) key := by
  rw [getField_merge]
  cases finished with
  | false => rfl
  | true =>
    rw [doneMeta, if_pos rfl, Option.getD_some, Assoc.lookup_set, if_neg other.symm, getField]
    cases (message_meta.getD []).lookup key <;> rfl

section Requests

variable {tables : Tables} {event : Event} {outcome : Outcome}

theorem insert_new_message_message (fresh : Fresh) (form : MessageForm)
    (channel_id user_id : String) :
    (insert_new_message fresh tables form channel_id user_id).message =
      tables.message.set fresh.uuid (messageOf fresh form channel_id user_id) := by
  have joined : (join_channel fresh.now tables channel_id user_id).message = tables.message :=
    (join_channel_frame _ _ _).2.1
  rw [← joined]
  rfl

theorem openDm_message (fresh : Fresh) (caller : Caller) (user_ids : List String)
    (form : CreateChannelForm) :
    (openDm fresh tables caller user_ids form).tables.message = tables.message := by
  unfold openDm
  split <;> rfl

theorem messages_cases (accepted : Accepted tables event outcome) :
    MessagesChange tables event outcome.tables := by
  cases accepted with
  | reading asked => exact .same (by rw [asked]; rfl) rfl
  | dmOpened user_id asked => exact .same (by rw [asked]; rfl) (openDm_message _ _ _ _)
  | dmCreated form user_ids access_grants asked type named =>
    exact .same (by rw [asked]; rfl) (openDm_message _ _ _ _)
  | created form access_grants asked type => exact .same (by rw [asked]; rfl) rfl
  | activated id is_active asked member => exact .same (by rw [asked]; rfl) rfl
  | added id user_ids group_ids channel asked found => exact .same (by rw [asked]; rfl) rfl
  | removed id user_ids channel asked found => exact .same (by rw [asked]; rfl) rfl
  | granted id asking access_grants channel asked allowed found =>
    refine .same (by rw [asked]; rfl) ?_
    cases access_grants <;> rfl
  | channelDeleted id channel asked found => exact .same (by rw [asked]; rfl) rfl
  | listed id channel asked found =>
    refine .same (by rw [asked]; rfl) ?_
    rw [quiet_tables]
    split
    · rfl
    · exact (join_channel_frame _ _ _).2.1
  | posted id form channel asked found use parent reply =>
    refine .posted id form asked parent reply ?_
    rw [posted_tables]
    exact (postedTables_frame _ _ _ _ _).2.2.2.2.trans (insert_new_message_message _ _ _ _)
  | emitted id message_id content finished output message asked named =>
    rw [announce_tables]
    exact .emitted id message_id content finished output _ asked (findMessage_ok named).1
      (findMessage_ok named).2 rfl
  | pinned id message_id is_pinned channel message asked found named =>
    rw [announce_tables]
    exact .pinned id message_id is_pinned _ asked (findMessage_ok named).1 (findMessage_ok named).2
      rfl
  | updated id message_id form channel message asked found named =>
    rw [announce_tables]
    exact .updated id message_id form _ asked (findMessage_ok named).1 (findMessage_ok named).2 rfl
  | reacted id message_id name channel message asked found named =>
    refine .same (by rw [asked]; rfl) ?_
    rw [announce_tables]
    unfold add_reaction_to_message
    split <;> rfl
  | unreacted id message_id name channel message asked found named =>
    refine .same (by rw [asked]; rfl) ?_
    rw [announce_tables]
    rfl
  | deleted id message_id channel message asked found named =>
    rw [withParent_tables]
    exact .deleted id message_id _ asked (findMessage_ok named).1 (findMessage_ok named).2 rfl
  | webhookMade id name channel asked found => exact .same (by rw [asked]; rfl) rfl
  | webhookRenamed id webhook_id name asked => exact .same (by rw [asked]; rfl) rfl
  | webhookRemoved id webhook_id asked => exact .same (by rw [asked]; rfl) rfl
  | webhookPosted webhook_id token content webhook channel asked enabled known found =>
    rw [announce_tables]
    exact .webhookPosted webhook_id token content webhook asked known
      (insert_new_message_message _ _ _ _)
  | lastRead channel_id asked => exact .same (by rw [asked]; rfl) rfl

end Requests

end OpenWebui.Channels
