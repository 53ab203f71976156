import OpenWebui.Channels.References

/-! The sender that is shown for a message is the one who made it, exactly when no user posts a
message, or updates one, with a meta that names a webhook or a model of its own. -/

namespace OpenWebui.Channels

/-- The `model_id` in the meta of a message. -/
def modelId (message_meta : Option Fields) : Json := getField (message_meta.getD []) "model_id"

/-- The request of a run that made the message with an id last, and the state before it. -/
def MadeBy (start : Tables) (run : List Event) (id : String) (before : Tables) (event : Event) :
    Prop :=
  ∃ earlier later, run = earlier ++ event :: later ∧ earlier.foldlM step start = some before ∧
    event.fresh.uuid = id ∧ (∀ other ∈ later, other.fresh.uuid ≠ id) ∧ Accepts before event

/-- Messages are shown as from a webhook only where it posted them with its token, carry a model
only where they are its response, and are shown as from the user who posted them else. -/
structure Authentic (start : Tables) (run : List Event) (tables : Tables) : Prop where
  webhook : ∀ id message webhook_id name, tables.message.get? id = some message →
    senderOf tables message = .ok (some (.webhook webhook_id name)) →
      ∃ before event token content webhook, MadeBy start run id before event ∧
        event.request = .post_webhook_message webhook_id token content ∧
          get_webhook_by_id_and_token before webhook_id token = some webhook ∧
            message.channel_id = some webhook.channel_id
  model : ∀ id message, tables.message.get? id = some message →
    modelId message.message_meta ≠ .null →
      ∃ before event channel_id message_id parent_id thread model_id model_name,
        MadeBy start run id before event ∧ event.request =
          .model_response_handler channel_id message_id parent_id thread model_id model_name ∧
            modelId message.message_meta = .str model_id
  user : ∀ id message, tables.message.get? id = some message →
    (∀ webhook_id name, senderOf tables message ≠ .ok (some (.webhook webhook_id name))) →
      modelId message.message_meta = .null →
        ∃ before event channel_id form, MadeBy start run id before event ∧
          event.request = .post_new_message channel_id form ∧
            senderOf tables message = .ok (userSender tables event.caller.id)

/-- The metas that users write name no webhook and no model, and change none that is named. -/
structure Attributing (tables : Tables) (event : Event) : Prop where
  posted : ∀ id form, event.request = .post_new_message id form →
    webhookInfo form.message_meta = .ok none ∧ modelId form.message_meta = .null
  updated : ∀ id message_id form message old new,
    event.request = .update_message_by_id id message_id form →
      tables.message.get? message_id = some message → old = message.message_meta →
        new = some (Assoc.merge (old.getD []) (form.message_meta.getD [])) →
          modelId new = modelId old ∧ (modelId old = .null → webhookInfo new = webhookInfo old) ∧
            (modelId old ≠ .null → ∀ webhook_id, webhookInfo new ≠ .ok (some webhook_id))

section Senders

variable {tables : Tables} {message : Message}

theorem senderOf_webhook {webhook_id : String} :
    (∃ name, senderOf tables message = .ok (some (.webhook webhook_id name))) ↔
      webhookInfo message.message_meta = .ok (some webhook_id) := by
  unfold senderOf
  constructor
  · rintro ⟨name, sender⟩
    obtain ⟨info, named, same⟩ := map_eq_ok.mp sender
    cases info with
    | none =>
      rw [Option.map_none, Option.none_or, userSender] at same
      split at same <;> cases same
    | some other =>
      obtain ⟨rfl, _⟩ := Sender.webhook.inj (Option.some.inj same)
      exact named
  · intro named
    rw [named]
    exact ⟨_, rfl⟩

theorem senderOf_user (named : webhookInfo message.message_meta = .ok none) :
    senderOf tables message = .ok (userSender tables message.user_id) := by
  unfold senderOf
  rw [named]
  rfl

theorem webhookInfo_of_senderOf {sender : Option Sender}
    (shown : senderOf tables message = .ok sender)
    (unnamed : ∀ webhook_id, webhookInfo message.message_meta ≠ .ok (some webhook_id)) :
    webhookInfo message.message_meta = .ok none := by
  obtain ⟨info, named, _⟩ := map_eq_ok.mp shown
  cases info with
  | none => exact named
  | some webhook_id => exact absurd named (unnamed webhook_id)

end Senders

section Origins

variable {start : Tables} {run : List Event} {id : String}

theorem madeBy_snoc {last event : Event} {before : Tables} :
    MadeBy start (run ++ [last]) id before event ↔
      (last.fresh.uuid = id ∧ event = last ∧ run.foldlM step start = some before ∧
        Accepts before last) ∨ (last.fresh.uuid ≠ id ∧ MadeBy start run id before event) := by
  constructor
  · rintro ⟨earlier, later, split, reached, made, only, accepts⟩
    rcases later.eq_nil_or_concat with rfl | ⟨init, final, rfl⟩
    · obtain ⟨rfl, same⟩ := List.append_inj' split rfl
      obtain rfl := List.singleton_inj.mp same
      exact Or.inl ⟨made, rfl, reached, accepts⟩
    · rw [List.concat_eq_append] at split only
      rw [← List.cons_append, ← List.append_assoc] at split
      obtain ⟨rfl, same⟩ := List.append_inj' split rfl
      obtain rfl := List.singleton_inj.mp same
      exact Or.inr ⟨only last (List.mem_append_right _ List.mem_cons_self), earlier, init, rfl,
        reached, made, fun other member => only other (List.mem_append_left _ member), accepts⟩
  · rintro (⟨made, rfl, reached, accepts⟩ | ⟨apart, earlier, later, rfl, reached, made, only,
      accepts⟩)
    · exact ⟨run, [], rfl, reached, made, fun _ member => absurd member List.not_mem_nil, accepts⟩
    · refine ⟨earlier, later ++ [last], by simp, reached, made, ?_, accepts⟩
      intro other member
      rcases List.mem_append.mp member with early | final
      · exact only other early
      · obtain rfl := List.mem_singleton.mp final
        exact apart

theorem madeBy_unique {before before' : Tables} {event event' : Event}
    (made : MadeBy start run id before event) (made' : MadeBy start run id before' event') :
    before = before' ∧ event = event' := by
  induction run using List.reverseRecOn with
  | nil =>
    obtain ⟨earlier, later, split, _⟩ := made
    simp at split
  | append_singleton run last ih =>
    rcases madeBy_snoc.mp made with ⟨here, rfl, reached, _⟩ | ⟨apart, early⟩
    · rcases madeBy_snoc.mp made' with ⟨_, rfl, reached', _⟩ | ⟨apart', _⟩
      · exact ⟨Option.some.inj (reached.symm.trans reached'), rfl⟩
      · exact absurd here apart'
    · rcases madeBy_snoc.mp made' with ⟨here', _⟩ | ⟨_, early'⟩
      · exact absurd here' apart
      · exact ih early early'

/-- The request posts a message of its user, or of a webhook that is there with its token. -/
def Wrote (before : Tables) (event : Event) (message : Message) : Prop :=
  (∃ channel_id form, event.request.post? = some (channel_id, form) ∧
    message.user_id = event.caller.id) ∨
  ∃ webhook_id token content webhook,
    event.request = .post_webhook_message webhook_id token content ∧
      get_webhook_by_id_and_token before webhook_id token = some webhook ∧
        message.channel_id = some webhook.channel_id

/-- Every message was made by a request of the run. -/
structure Traced (start : Tables) (run : List Event) (tables : Tables) : Prop where
  reached : run.foldlM step start = some tables
  named : "" ∉ tables.webhook.keys
  wrote : ∀ id message, tables.message.get? id = some message →
    ∃ before event, MadeBy start run id before event ∧ Wrote before event message

/-- The meta of a message is that of the request that made it. -/
structure Matches (event : Event) (message_meta : Option Fields) : Prop where
  user : ∀ id form, event.request = .post_new_message id form →
    webhookInfo message_meta = .ok none ∧ modelId message_meta = .null
  model : ∀ id message_id parent_id thread model_id model_name, event.request =
    .model_response_handler id message_id parent_id thread model_id model_name →
      (∀ webhook_id, webhookInfo message_meta ≠ .ok (some webhook_id)) ∧
        modelId message_meta = .str model_id
  webhook : ∀ webhook_id token content,
    event.request = .post_webhook_message webhook_id token content →
      webhookInfo message_meta = .ok (some webhook_id) ∧ modelId message_meta = .null

def Faithful (start : Tables) (run : List Event) (tables : Tables) : Prop :=
  ∀ id message, tables.message.get? id = some message → ∀ before event,
    MadeBy start run id before event → Matches event message.message_meta

theorem post?_cases {request : Request} {posting : String × MessageForm}
    (asked : request.post? = some posting) :
    (∃ id form, request = .post_new_message id form ∧ posting = (id, form)) ∨
      ∃ id message_id parent_id thread model_id model_name, request =
        .model_response_handler id message_id parent_id thread model_id model_name ∧
          posting = (id, responseForm message_id parent_id thread model_id model_name) := by
  cases request with
  | post_new_message id form =>
    exact Or.inl ⟨id, form, rfl, (Option.some.inj asked).symm⟩
  | model_response_handler id message_id parent_id thread model_id model_name =>
    exact Or.inr ⟨id, message_id, parent_id, thread, model_id, model_name, rfl,
      (Option.some.inj asked).symm⟩
  | _ => cases asked

theorem authentic_iff {tables : Tables} (traced : Traced start run tables) :
    Authentic start run tables ↔ Faithful start run tables := by
  constructor
  · intro authentic id message stored before event made
    obtain ⟨before', event', made', wrote⟩ := traced.wrote id message stored
    obtain ⟨rfl, rfl⟩ := madeBy_unique made made'
    -- The request that the meta points to is the one that made the message.
    have by_webhook : ∀ webhook_id, webhookInfo message.message_meta = .ok (some webhook_id) →
        ∃ token content, event.request = .post_webhook_message webhook_id token content := by
      intro webhook_id named
      obtain ⟨name, shown⟩ := senderOf_webhook.mpr named
      obtain ⟨_, _, token, content, _, made', asked, _⟩ :=
        authentic.webhook id message webhook_id name stored shown
      obtain ⟨_, rfl⟩ := madeBy_unique made made'
      exact ⟨token, content, asked⟩
    have by_model : modelId message.message_meta ≠ .null → ∃ channel_id message_id parent_id thread
        model_id model_name, event.request = .model_response_handler channel_id message_id
          parent_id thread model_id model_name ∧ modelId message.message_meta = .str model_id := by
      intro carries
      obtain ⟨_, _, channel_id, message_id, parent_id, thread, model_id, model_name, made', asked,
        same⟩ := authentic.model id message stored carries
      obtain ⟨_, rfl⟩ := madeBy_unique made made'
      exact ⟨channel_id, message_id, parent_id, thread, model_id, model_name, asked, same⟩
    have by_user : (∀ webhook_id, webhookInfo message.message_meta ≠ .ok (some webhook_id)) →
        modelId message.message_meta = .null → (∃ channel_id form,
          event.request = .post_new_message channel_id form) ∧
            webhookInfo message.message_meta = .ok none := by
      intro unnamed bare
      obtain ⟨_, _, channel_id, form, made', asked, shown⟩ := authentic.user id message stored
        (fun webhook_id name shown => unnamed webhook_id (senderOf_webhook.mp ⟨name, shown⟩)) bare
      obtain ⟨_, rfl⟩ := madeBy_unique made made'
      exact ⟨⟨channel_id, form, asked⟩, webhookInfo_of_senderOf shown unnamed⟩
    constructor
    · intro channel_id form asked
      have unnamed : ∀ webhook_id, webhookInfo message.message_meta ≠ .ok (some webhook_id) := by
        intro webhook_id named
        obtain ⟨token, content, asked'⟩ := by_webhook webhook_id named
        cases asked.symm.trans asked'
      have bare : modelId message.message_meta = .null := by
        by_contra carries
        obtain ⟨_, _, _, _, _, _, asked', _⟩ := by_model carries
        cases asked.symm.trans asked'
      exact ⟨(by_user unnamed bare).2, bare⟩
    · intro channel_id message_id parent_id thread model_id model_name asked
      have unnamed : ∀ webhook_id, webhookInfo message.message_meta ≠ .ok (some webhook_id) := by
        intro webhook_id named
        obtain ⟨token, content, asked'⟩ := by_webhook webhook_id named
        cases asked.symm.trans asked'
      refine ⟨unnamed, ?_⟩
      by_cases bare : modelId message.message_meta = .null
      · obtain ⟨⟨_, _, asked'⟩, _⟩ := by_user unnamed bare
        cases asked.symm.trans asked'
      · obtain ⟨_, _, _, _, other, _, asked', same⟩ := by_model bare
        obtain ⟨_, _, _, _, rfl, _⟩ :=
          Request.model_response_handler.inj (asked.symm.trans asked')
        exact same
    · intro webhook_id token content asked
      have bare : modelId message.message_meta = .null := by
        by_contra carries
        obtain ⟨_, _, _, _, _, _, asked', _⟩ := by_model carries
        cases asked.symm.trans asked'
      refine ⟨?_, bare⟩
      by_contra other
      have unnamed : ∀ webhook_id, webhookInfo message.message_meta ≠ .ok (some webhook_id) := by
        intro webhook_id' named
        obtain ⟨token', content', asked'⟩ := by_webhook webhook_id' named
        obtain ⟨rfl, _, _⟩ := Request.post_webhook_message.inj (asked.symm.trans asked')
        exact other named
      obtain ⟨⟨_, _, asked'⟩, _⟩ := by_user unnamed bare
      cases asked.symm.trans asked'
  · intro faithful
    have origin : ∀ id message, tables.message.get? id = some message → ∃ before event,
        MadeBy start run id before event ∧ Wrote before event message ∧
          Matches event message.message_meta := by
      intro id message stored
      obtain ⟨before, event, made, wrote⟩ := traced.wrote id message stored
      exact ⟨before, event, made, wrote, faithful id message stored before event made⟩
    constructor
    · intro id message webhook_id name stored shown
      have named := senderOf_webhook.mp ⟨name, shown⟩
      obtain ⟨before, event, made, wrote, same⟩ := origin id message stored
      rcases wrote with ⟨channel_id, form, asked, _⟩ | ⟨other, token, content, webhook, asked, known,
        inside⟩
      · rcases post?_cases asked with ⟨_, _, asked', _⟩ | ⟨_, _, _, _, _, _, asked', _⟩
        · cases (same.user _ _ asked').1.symm.trans named
        · exact absurd named ((same.model _ _ _ _ _ _ asked').1 webhook_id)
      · obtain rfl := Option.some.inj (Except.ok.inj
          ((same.webhook other token content asked).1.symm.trans named))
        exact ⟨before, event, token, content, webhook, made, asked, known, inside⟩
    · intro id message stored carries
      obtain ⟨before, event, made, wrote, same⟩ := origin id message stored
      rcases wrote with ⟨channel_id, form, asked, _⟩ | ⟨other, token, content, webhook, asked, _⟩
      · rcases post?_cases asked with ⟨_, _, asked', _⟩ | ⟨channel_id, message_id, parent_id,
          thread, model_id, model_name, asked', _⟩
        · exact absurd (same.user _ _ asked').2 carries
        · exact ⟨before, event, channel_id, message_id, parent_id, thread, model_id, model_name,
            made, asked', (same.model _ _ _ _ _ _ asked').2⟩
      · exact absurd (same.webhook other token content asked).2 carries
    · intro id message stored unshown bare
      obtain ⟨before, event, made, wrote, same⟩ := origin id message stored
      rcases wrote with ⟨channel_id, form, asked, owner⟩ | ⟨other, token, content, webhook, asked, _⟩
      · rcases post?_cases asked with ⟨channel_id, form, asked', _⟩ | ⟨_, _, _, _, _, _, asked', _⟩
        · refine ⟨before, event, channel_id, form, made, asked', ?_⟩
          rw [← owner]
          exact senderOf_user (same.user _ _ asked').1
        · cases (same.model _ _ _ _ _ _ asked').2.symm.trans bare
      · obtain ⟨name, shown⟩ :=
          @senderOf_webhook tables message other |>.mpr (same.webhook other token content asked).1
        exact absurd shown (unshown other name)

end Origins

section Step

variable {start tables after : Tables} {run : List Event} {event : Event} {outcome : Outcome}

theorem webhook_keys_of_accepted (accepted : Accepted tables event outcome) {key : String}
    (member : key ∈ outcome.tables.webhook.keys) :
    key = event.fresh.uuid ∨ key ∈ tables.webhook.keys := by
  have kept : ∀ {later : Tables}, later.webhook = tables.webhook → key ∈ later.webhook.keys →
      key = event.fresh.uuid ∨ key ∈ tables.webhook.keys := by
    intro later same member
    rw [same] at member
    exact Or.inr member
  have opened : ∀ user_ids form, (openDm event.fresh tables event.caller user_ids form).tables.webhook =
      tables.webhook := by
    intro user_ids form
    unfold openDm
    split <;> rfl
  cases accepted with
  | reading asked => exact Or.inr member
  | dmOpened user_id asked => exact kept (opened _ _) member
  | dmCreated form user_ids access_grants asked type named => exact kept (opened _ _) member
  | created form access_grants asked type => exact Or.inr member
  | activated id is_active asked inside => exact Or.inr member
  | added id user_ids group_ids channel asked found => exact Or.inr member
  | removed id user_ids channel asked found => exact Or.inr member
  | granted id asking access_grants channel asked allowed found =>
    refine kept ?_ member
    cases access_grants <;> rfl
  | channelDeleted id channel asked found => exact Or.inr member
  | listed id channel asked found =>
    refine kept ?_ member
    rw [quiet_tables]
    split
    · rfl
    · exact (join_channel_frame _ _ _).2.2.2.1
  | posted id form channel asked found use parent reply =>
    refine kept ?_ member
    rw [posted_tables]
    exact (postedTables_frame _ _ _ _ _).2.2.1
  | emitted id message_id content finished output message asked named =>
    rw [announce_tables] at member
    exact Or.inr member
  | pinned id message_id is_pinned channel message asked found named =>
    rw [announce_tables] at member
    exact Or.inr member
  | updated id message_id form channel message asked found named =>
    rw [announce_tables] at member
    exact Or.inr member
  | reacted id message_id name channel message asked found named =>
    refine kept ?_ member
    rw [announce_tables]
    unfold add_reaction_to_message
    split <;> rfl
  | unreacted id message_id name channel message asked found named =>
    rw [announce_tables] at member
    exact Or.inr member
  | deleted id message_id channel message asked found named =>
    rw [withParent_tables] at member
    exact Or.inr member
  | webhookMade id name channel asked found =>
    rw [quiet_tables, insert_webhook, Dict.mem_keys_set] at member
    exact member
  | webhookRenamed id webhook_id name asked =>
    rw [quiet_tables, update_webhook_by_id, Dict.keys_modify] at member
    exact Or.inr member
  | webhookRemoved id webhook_id asked =>
    rw [quiet_tables, delete_webhook_by_id, Dict.mem_keys_erase] at member
    exact Or.inr member.2
  | webhookPosted webhook_id token content webhook channel asked enabled known found =>
    refine kept ?_ member
    rw [announce_tables]
    exact (insert_new_message_frame _ _ _ _).2.2.1
  | lastRead channel_id asked => exact Or.inr member

theorem webhook_filled (named : "" ∉ tables.webhook.keys) {webhook_id token : String}
    {webhook : ChannelWebhook}
    (known : get_webhook_by_id_and_token tables webhook_id token = some webhook) :
    webhook_id ≠ "" := by
  rintro rfl
  exact named (Dict.mem_keys_of_get? (Option.filter_eq_some_iff.mp known).1)

theorem madeBy_stays {id : String} {message : Message} {before : Tables} {maker : Event}
    (new : Unused tables event.fresh.uuid) (stored : tables.message.get? id = some message) :
    MadeBy start (run ++ [event]) id before maker ↔ MadeBy start run id before maker := by
  have apart : event.fresh.uuid ≠ id := by
    rintro same
    exact new.message (same ▸ Dict.mem_keys_of_get? stored)
  rw [madeBy_snoc]
  constructor
  · rintro (⟨here, _⟩ | ⟨_, made⟩)
    · exact absurd here apart
    · exact made
  · exact fun made => Or.inr ⟨apart, made⟩

theorem traced_set (traced : Traced start run tables) (new : Unused tables event.fresh.uuid)
    (accepts : Accepts tables event) {row : Message} (wrote : Wrote tables event row)
    (messages : after.message = tables.message.set event.fresh.uuid row) {id : String}
    {message : Message} (stored : after.message.get? id = some message) :
    ∃ before maker, MadeBy start (run ++ [event]) id before maker ∧ Wrote before maker message := by
  rw [messages, Dict.get?_set] at stored
  split at stored
  · rename_i here
    obtain rfl := Option.some.inj stored
    exact ⟨tables, event, madeBy_snoc.mpr (Or.inl ⟨here, rfl, traced.reached, accepts⟩), wrote⟩
  · obtain ⟨before, maker, made, wrote⟩ := traced.wrote id message stored
    exact ⟨before, maker, (madeBy_stays new stored).mpr made, wrote⟩

theorem traced_kept (traced : Traced start run tables) (new : Unused tables event.fresh.uuid)
    (kept : ∀ id message, after.message.get? id = some message →
      ∃ old, tables.message.get? id = some old ∧ message.user_id = old.user_id ∧
        message.channel_id = old.channel_id) {id : String} {message : Message}
    (stored : after.message.get? id = some message) :
    ∃ before maker, MadeBy start (run ++ [event]) id before maker ∧ Wrote before maker message := by
  obtain ⟨old, was, user, channel⟩ := kept id message stored
  obtain ⟨before, maker, made, wrote⟩ := traced.wrote id old was
  refine ⟨before, maker, (madeBy_stays new was).mpr made, ?_⟩
  unfold Wrote
  rw [user, channel]
  exact wrote

theorem get?_modify_some {id other : String} {message : Message} {change : Message → Message}
    (messages : after.message = tables.message.modify id change)
    (stored : after.message.get? other = some message) :
    ∃ old, tables.message.get? other = some old ∧ message = if id = other then change old else old := by
  rw [messages] at stored
  rcases Dict.get?_modify_cases stored with ⟨here, old, was, rfl⟩ | ⟨apart, kept⟩
  · exact ⟨old, was, (if_pos here).symm⟩
  · exact ⟨message, kept, (if_neg apart).symm⟩

theorem traced_modify (traced : Traced start run tables) (new : Unused tables event.fresh.uuid)
    {changed : String} {change : Message → Message}
    (messages : after.message = tables.message.modify changed change)
    (same : ∀ message, (change message).user_id = message.user_id ∧
      (change message).channel_id = message.channel_id) {id : String} {message : Message}
    (stored : after.message.get? id = some message) :
    ∃ before maker, MadeBy start (run ++ [event]) id before maker ∧ Wrote before maker message := by
  refine traced_kept traced new (fun other row there => ?_) stored
  obtain ⟨old, was, rfl⟩ := get?_modify_some messages there
  refine ⟨old, was, ?_⟩
  split
  · exact same old
  · exact ⟨rfl, rfl⟩

theorem traced_step (traced : Traced start run tables) (stepped : step tables event = some after) :
    Traced start (run ++ [event]) after := by
  have reached : (run ++ [event]).foldlM step start = some after := by
    rw [List.foldlM_append, traced.reached]
    change [event].foldlM step tables = some after
    rw [List.foldlM_cons, stepped]
    rfl
  obtain ⟨new, rfl⟩ := step_eq_some.mp stepped
  cases done : answered tables event with
  | error refused =>
    have same : (handle tables event).tables = tables := by
      rw [handle, done]
    refine ⟨reached, by rw [same]; exact traced.named, ?_⟩
    intro id message stored
    rw [same] at stored
    exact traced_kept traced new (fun id message there => ⟨message, there, rfl, rfl⟩) stored
  | ok outcome =>
    have same : (handle tables event).tables = outcome.tables := by
      rw [handle, done]
    rw [same] at reached ⊢
    have accepted := accepted_of_answered done
    refine ⟨reached, ?_, ?_⟩
    · intro member
      rcases webhook_keys_of_accepted accepted member with fresh | old
      · exact new.filled fresh.symm
      · exact traced.named old
    · intro id message stored
      cases messages_cases accepted with
      | same silent messages =>
        rw [messages] at stored
        exact traced_kept traced new (fun id message there => ⟨message, there, rfl, rfl⟩) stored
      | posted channel_id form asked parent reply messages =>
        exact traced_set traced new ⟨outcome, done⟩ (Or.inl ⟨channel_id, form, asked, rfl⟩) messages
          stored
      | webhookPosted webhook_id token content webhook asked known messages =>
        exact traced_set traced new ⟨outcome, done⟩
          (Or.inr ⟨webhook_id, token, content, webhook, asked, known, rfl⟩) messages stored
      | updated channel_id message_id form row asked found inside messages =>
        exact traced_modify traced new messages (fun _ => ⟨rfl, rfl⟩) stored
      | emitted channel_id message_id content finished output row asked found inside messages =>
        exact traced_modify traced new messages (fun _ => ⟨rfl, rfl⟩) stored
      | pinned channel_id message_id is_pinned row asked found inside messages =>
        exact traced_modify traced new messages (fun _ => ⟨rfl, rfl⟩) stored
      | deleted channel_id message_id row asked found inside messages =>
        refine traced_kept traced new (fun id message there => ?_) stored
        rw [messages, Dict.get?_erase] at there
        split at there
        · cases there
        · exact ⟨message, there, rfl, rfl⟩

theorem faithful_set_iff (traced : Traced start run tables) (faithful : Faithful start run tables)
    (new : Unused tables event.fresh.uuid) (accepts : Accepts tables event) {row : Message}
    (messages : after.message = tables.message.set event.fresh.uuid row) :
    Faithful start (run ++ [event]) after ↔ Matches event row.message_meta := by
  have made : MadeBy start (run ++ [event]) event.fresh.uuid tables event :=
    madeBy_snoc.mpr (Or.inl ⟨rfl, rfl, traced.reached, accepts⟩)
  constructor
  · intro faithful'
    exact faithful' event.fresh.uuid row (by rw [messages, Dict.get?_set, if_pos rfl]) tables event
      made
  · intro same id message stored before maker made'
    rw [messages, Dict.get?_set] at stored
    split at stored
    · rename_i here
      subst here
      obtain rfl := Option.some.inj stored
      obtain ⟨_, rfl⟩ := madeBy_unique made made'
      exact same
    · exact faithful id message stored before maker ((madeBy_stays new stored).mp made')

theorem faithful_modify_iff (faithful : Faithful start run tables)
    (new : Unused tables event.fresh.uuid) {id : String} {message : Message}
    (found : tables.message.get? id = some message) {change : Message → Message}
    (messages : after.message = tables.message.modify id change) :
    Faithful start (run ++ [event]) after ↔ ∀ before maker, MadeBy start run id before maker →
      Matches maker (change message).message_meta := by
  have here : after.message.get? id = some (change message) := by
    rw [messages, Dict.get?_modify, if_pos rfl, found, Option.map_some]
  constructor
  · intro faithful' before maker made
    exact faithful' id _ here before maker ((madeBy_stays new found).mpr made)
  · intro same other row stored before maker made
    by_cases where_ : id = other
    · subst where_
      obtain rfl := Option.some.inj (here.symm.trans stored)
      exact same before maker ((madeBy_stays new found).mp made)
    · rw [messages, Dict.get?_modify, if_neg where_] at stored
      exact faithful other row stored before maker ((madeBy_stays new stored).mp made)

theorem faithful_kept (faithful : Faithful start run tables) (new : Unused tables event.fresh.uuid)
    (kept : ∀ id message, after.message.get? id = some message →
      ∃ old, tables.message.get? id = some old ∧
        webhookInfo message.message_meta = webhookInfo old.message_meta ∧
          modelId message.message_meta = modelId old.message_meta) :
    Faithful start (run ++ [event]) after := by
  intro id message stored before maker made
  obtain ⟨old, was, webhook, model⟩ := kept id message stored
  have same := faithful id old was before maker ((madeBy_stays new was).mp made)
  constructor
  · intro channel_id form asked
    rw [webhook, model]
    exact same.user channel_id form asked
  · intro channel_id message_id parent_id thread model_id model_name asked
    rw [webhook, model]
    exact same.model channel_id message_id parent_id thread model_id model_name asked
  · intro webhook_id token content asked
    rw [webhook, model]
    exact same.webhook webhook_id token content asked

theorem matches_again_iff {maker : Event} {message : Message} {before : Tables}
    {new : Option Fields} (wrote : Wrote before maker message)
    (same : Matches maker message.message_meta) :
    Matches maker new ↔ modelId new = modelId message.message_meta ∧
      (modelId message.message_meta = .null →
        webhookInfo new = webhookInfo message.message_meta) ∧
      (modelId message.message_meta ≠ .null →
        ∀ webhook_id, webhookInfo new ≠ .ok (some webhook_id)) := by
  rcases wrote with ⟨_, _, asked, _⟩ | ⟨webhook_id, token, content, _, asked, _⟩
  · rcases post?_cases asked with ⟨channel_id, form, asked', _⟩ | ⟨channel_id, message_id, parent_id,
      thread, model_id, model_name, asked', _⟩
    · obtain ⟨unnamed, bare⟩ := same.user channel_id form asked'
      rw [unnamed, bare]
      constructor
      · intro again
        obtain ⟨unnamed', bare'⟩ := again.user channel_id form asked'
        exact ⟨bare', fun _ => unnamed', fun carries => absurd rfl carries⟩
      · rintro ⟨bare', unnamed', _⟩
        refine ⟨fun _ _ _ => ⟨unnamed' rfl, bare'⟩, fun _ _ _ _ _ _ other => ?_,
          fun _ _ _ other => ?_⟩
        · cases asked'.symm.trans other
        · cases asked'.symm.trans other
    · obtain ⟨unnamed, carried⟩ :=
        same.model channel_id message_id parent_id thread model_id model_name asked'
      rw [carried]
      constructor
      · intro again
        obtain ⟨unnamed', carried'⟩ :=
          again.model channel_id message_id parent_id thread model_id model_name asked'
        exact ⟨carried', fun null => absurd null (by simp), fun _ => unnamed'⟩
      · rintro ⟨carried', _, unnamed'⟩
        refine ⟨fun _ _ other => ?_, fun _ _ _ _ _ _ other => ?_, fun _ _ _ other => ?_⟩
        · cases asked'.symm.trans other
        · obtain ⟨_, _, _, _, rfl, _⟩ :=
            Request.model_response_handler.inj (asked'.symm.trans other)
          exact ⟨unnamed' (by simp), carried'⟩
        · cases asked'.symm.trans other
  · obtain ⟨named, bare⟩ := same.webhook webhook_id token content asked
    rw [named, bare]
    constructor
    · intro again
      obtain ⟨named', bare'⟩ := again.webhook webhook_id token content asked
      exact ⟨bare', fun _ => named', fun carries => absurd rfl carries⟩
    · rintro ⟨bare', named', _⟩
      refine ⟨fun _ _ other => ?_, fun _ _ _ _ _ _ other => ?_, fun _ _ _ other => ?_⟩
      · cases asked.symm.trans other
      · cases asked.symm.trans other
      · obtain ⟨rfl, _, _⟩ := Request.post_webhook_message.inj (asked.symm.trans other)
        exact ⟨named' rfl, bare'⟩

theorem attributing_of_other (posts : ∀ id form, event.request ≠ .post_new_message id form)
    (updates : ∀ id message_id form, event.request ≠ .update_message_by_id id message_id form) :
    Attributing tables event where
  posted := fun id form asked => absurd asked (posts id form)
  updated := fun id message_id form _ _ _ asked => absurd asked (updates id message_id form)

theorem faithful_step_iff (traced : Traced start run tables) (faithful : Faithful start run tables)
    (stepped : step tables event = some after) :
    Faithful start (run ++ [event]) after ↔ (Accepts tables event → Attributing tables event) := by
  obtain ⟨new, _⟩ := step_eq_some.mp stepped
  have starts : Faithful start (run ++ [event]) tables :=
    faithful_kept faithful new (fun id message stored => ⟨message, stored, rfl, rfl⟩)
  refine holds_step_iff stepped starts (fun outcome new done => ?_)
  have accepts : Accepts tables event := ⟨outcome, done⟩
  cases messages_cases (accepted_of_answered done) with
  | same silent messages =>
    refine iff_of_true ?_ (attributing_of_other (fun _ _ asked => ?_) (fun _ _ _ asked => ?_))
    · refine faithful_kept faithful new (fun id message stored => ⟨message, ?_, rfl, rfl⟩)
      rwa [messages] at stored
    · rw [asked] at silent
      cases silent
    · rw [asked] at silent
      cases silent
  | posted id form asked parent reply messages =>
    rw [faithful_set_iff traced faithful new accepts messages]
    rcases post?_cases asked with ⟨_, _, asked', same⟩ | ⟨_, message_id, parent_id, thread,
      model_id, model_name, asked', same⟩
    · obtain ⟨rfl, rfl⟩ := Prod.mk.inj same
      constructor
      · intro matched
        refine ⟨fun _ _ again => ?_, fun _ _ _ _ _ _ other => ?_⟩
        · obtain ⟨rfl, rfl⟩ := Request.post_new_message.inj (asked'.symm.trans again)
          exact matched.user id form asked'
        · cases asked'.symm.trans other
      · intro attributing
        refine ⟨fun _ _ again => ?_, fun _ _ _ _ _ _ other => ?_, fun _ _ _ other => ?_⟩
        · exact attributing.posted id form asked'
        · cases asked'.symm.trans other
        · cases asked'.symm.trans other
    · obtain ⟨rfl, rfl⟩ := Prod.mk.inj same
      refine iff_of_true ?_ (attributing_of_other (fun _ _ other => ?_) (fun _ _ _ other => ?_))
      · refine ⟨fun _ _ other => ?_, fun _ _ _ _ _ _ again => ?_, fun _ _ _ other => ?_⟩
        · cases asked'.symm.trans other
        · obtain ⟨_, _, _, _, rfl, _⟩ :=
            Request.model_response_handler.inj (asked'.symm.trans again)
          exact ⟨fun _ => by simp [messageOf, responseForm, webhookInfo, getField_cons], rfl⟩
        · cases asked'.symm.trans other
      · cases asked'.symm.trans other
      · cases asked'.symm.trans other
  | webhookPosted webhook_id token content webhook asked known messages =>
    rw [faithful_set_iff traced faithful new accepts messages]
    refine iff_of_true ?_ (attributing_of_other (fun _ _ other => ?_) (fun _ _ _ other => ?_))
    · refine ⟨fun _ _ other => ?_, fun _ _ _ _ _ _ other => ?_, fun _ _ _ again => ?_⟩
      · cases asked.symm.trans other
      · cases asked.symm.trans other
      · obtain ⟨rfl, _, _⟩ := Request.post_webhook_message.inj (asked.symm.trans again)
        refine ⟨?_, rfl⟩
        change Except.ok (given (some webhook_id)) = _
        rw [given_eq_some.mpr ⟨rfl, webhook_filled traced.named known⟩]
    · cases asked.symm.trans other
    · cases asked.symm.trans other
  | updated id message_id form message asked found inside messages =>
    rw [faithful_modify_iff faithful new found messages]
    obtain ⟨before, maker, made, wrote⟩ := traced.wrote message_id message found
    have matched := faithful message_id message found before maker made
    have only : (∀ before maker, MadeBy start run message_id before maker → Matches maker
        (updated event.fresh.now form.content form.data form.message_meta message).message_meta) ↔
          Matches maker
            (some (Assoc.merge (message.message_meta.getD []) (form.message_meta.getD []))) := by
      constructor
      · intro all
        exact all before maker made
      · intro again before' maker' made'
        obtain ⟨_, rfl⟩ := madeBy_unique made made'
        exact again
    rw [only, matches_again_iff wrote matched]
    constructor
    · intro same
      refine ⟨fun _ _ other => ?_, fun _ _ _ message' old new again found' was merged => ?_⟩
      · cases asked.symm.trans other
      · obtain ⟨rfl, rfl, rfl⟩ := Request.update_message_by_id.inj (asked.symm.trans again)
        obtain rfl := Option.some.inj (found.symm.trans found')
        rw [merged, was]
        exact same
    · intro attributing
      exact attributing.updated id message_id form message _ _ asked found rfl rfl
  | emitted id message_id content finished output message asked found inside messages =>
    refine iff_of_true ?_ (attributing_of_other (fun _ _ other => ?_) (fun _ _ _ other => ?_))
    · refine faithful_kept faithful new (fun other row stored => ?_)
      obtain ⟨old, was, rfl⟩ := get?_modify_some messages stored
      refine ⟨old, was, ?_⟩
      split
      · rename_i here
        subst here
        obtain rfl := Option.some.inj (found.symm.trans was)
        exact ⟨webhookInfo_congr (getField_doneMeta finished message.message_meta (by decide)),
          getField_doneMeta finished message.message_meta (by decide)⟩
      · exact ⟨rfl, rfl⟩
    · cases asked.symm.trans other
    · cases asked.symm.trans other
  | pinned id message_id is_pinned message asked found inside messages =>
    refine iff_of_true ?_ (attributing_of_other (fun _ _ other => ?_) (fun _ _ _ other => ?_))
    · rw [faithful_modify_iff faithful new found messages]
      exact fun before maker made => faithful message_id message found before maker made
    · cases asked.symm.trans other
    · cases asked.symm.trans other
  | deleted id message_id message asked found inside messages =>
    refine iff_of_true ?_ (attributing_of_other (fun _ _ other => ?_) (fun _ _ _ other => ?_))
    · refine faithful_kept faithful new (fun other row stored => ⟨row, ?_, rfl, rfl⟩)
      rw [messages, Dict.get?_erase] at stored
      split at stored
      · cases stored
      · exact stored
    · cases asked.symm.trans other
    · cases asked.symm.trans other

end Step

/-- The senders are authentic in every state of a run, exactly when every accepted request of it is
an attributing one. -/
theorem senders_authentic_iff {start final : Tables} {run : List Event}
    (empty : start.message = Dict.empty) (named : "" ∉ start.webhook.keys)
    (ran : run.foldlM step start = some final) :
    Runs.ThroughoutWith (Authentic start) step start run ↔ Runs.Always (fun earlier event =>
      ∀ tables, earlier.foldlM step start = some tables →
        Accepts tables event → Attributing tables event) run := by
  have none : ∀ id message, start.message.get? id ≠ some message := by
    intro id message stored
    rw [empty] at stored
    cases stored
  have traced : Traced start [] start :=
    ⟨rfl, named, fun id message stored => absurd stored (none id message)⟩
  have authentic : Authentic start [] start := by
    refine (authentic_iff traced).mpr ?_
    exact fun id message stored => absurd stored (none id message)
  refine @Runs.throughoutWith_iff _ _ _
    (fun tables event => Accepts tables event → Attributing tables event) _ (Traced start)
    (fun _ _ _ _ traced stepped => traced_step traced stepped) ?_ _ _ _ traced authentic ran
  intro earlier old event new traced authentic stepped
  rw [authentic_iff (traced_step traced stepped)]
  exact faithful_step_iff traced ((authentic_iff traced).mp authentic) stepped

def signedRun : List Event :=
  [byAdmin "ann" "c" (.create_new_channel ⟨some "group", none, none, some ["bob"]⟩),
    byAdmin "ann" "w" (.create_channel_webhook "c" "news"),
    byAdmin "bob" "m" (.post_new_message "c" ⟨"Hello", none, none, none, none⟩),
    byAdmin "" "n" (.post_webhook_message "w" "secret" "Good morning"),
    byAdmin "bob" "x" (.update_message_by_id "c" "m"
      ⟨"Hello all", none, none, none, some [("edited", .bool true)]⟩)]

theorem signed_messages_authentic :
    Runs.ThroughoutWith (Authentic noChannels) step noChannels signedRun := by
  obtain ⟨final, ran⟩ := Option.isSome_iff_exists.mp
    (by decide +kernel : (signedRun.foldlM step noChannels).isSome = true)
  refine (senders_authentic_iff rfl List.not_mem_nil ran).mpr ?_
  unfold signedRun
  rw [Runs.always_cons, Runs.always_cons, Runs.always_cons, Runs.always_cons, Runs.always_cons]
  refine ⟨?_, ?_, ?_, ?_, ?_, Runs.always_nil _⟩
  · intro tables _ _
    exact attributing_of_other (fun _ _ asked => by cases asked) (fun _ _ _ asked => by cases asked)
  · intro tables _ _
    exact attributing_of_other (fun _ _ asked => by cases asked) (fun _ _ _ asked => by cases asked)
  · intro tables _ _
    refine ⟨fun id form asked => ?_, fun _ _ _ _ _ _ asked => ?_⟩
    · obtain ⟨rfl, rfl⟩ := Request.post_new_message.inj asked
      exact ⟨rfl, rfl⟩
    · cases asked
  · intro tables _ _
    exact attributing_of_other (fun _ _ asked => by cases asked) (fun _ _ _ asked => by cases asked)
  · intro tables reached _
    refine ⟨fun _ _ asked => ?_, fun id message_id form message old new asked found was merged => ?_⟩
    · cases asked
    · obtain ⟨rfl, rfl, rfl⟩ := Request.update_message_by_id.inj asked
      have bare : (((signedRun.take 4).foldlM step noChannels).all (fun tables =>
          (tables.message.get? "m").all (fun message =>
            message.message_meta.isNone))) = true := by
        decide +kernel
      have here : (signedRun.take 4).foldlM step noChannels = some tables := reached
      rw [here, Option.all_some, found, Option.all_some, ← was, Option.isNone_iff_eq_none] at bare
      subst bare
      subst merged
      exact ⟨rfl, fun _ => rfl, fun carries => absurd rfl carries⟩

def forgedRun : List Event :=
  [byAdmin "ann" "c" (.create_new_channel ⟨some "group", none, none, some ["bob"]⟩),
    byAdmin "ann" "w" (.create_channel_webhook "c" "news"),
    byAdmin "bob" "m" (.post_new_message "c" ⟨"Good morning", none, none, none,
      some [("webhook", .obj [("id", .str "w")])]⟩)]

theorem forged_meta_names_webhook :
    ¬ ∀ (start final : Tables) (run : List Event), start.message = Dict.empty →
      "" ∉ start.webhook.keys → run.foldlM step start = some final →
        Runs.ThroughoutWith (Authentic start) step start run := by
  intro always
  obtain ⟨final, ran⟩ := Option.isSome_iff_exists.mp
    (by decide +kernel : (forgedRun.foldlM step noChannels).isSome = true)
  have authentic : Authentic noChannels forgedRun final := always noChannels final forgedRun rfl
    List.not_mem_nil ran forgedRun [] (List.append_nil _).symm final ran
  have shown : ((forgedRun.foldlM step noChannels).all (fun tables =>
      (tables.message.get? "m").any (fun message =>
        decide (webhookInfo message.message_meta = .ok (some "w"))))) = true := by
    decide +kernel
  rw [ran, Option.all_some] at shown
  obtain ⟨message, stored, named⟩ := (Option.any_eq_true _ _).mp shown
  obtain ⟨name, sender⟩ :=
    @senderOf_webhook final message "w" |>.mpr (of_decide_eq_true named)
  obtain ⟨_, event, token, content, _, ⟨earlier, later, split, _⟩, asked, _⟩ :=
    authentic.webhook "m" message "w" name stored sender
  have made : event ∈ forgedRun := by
    rw [split]
    exact List.mem_append_right _ List.mem_cons_self
  rcases List.mem_cons.mp made with rfl | made
  · cases asked
  · rcases List.mem_cons.mp made with rfl | made
    · cases asked
    · obtain rfl := List.mem_singleton.mp made
      cases asked

end OpenWebui.Channels
