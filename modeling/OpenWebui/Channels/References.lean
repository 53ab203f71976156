import OpenWebui.Channels.Membership
import OpenWebui.Channels.Writes

/-! Messages refer to older messages of their own channel, in every state that requests reach. -/

namespace OpenWebui.Channels

/-- A message is a reply in the thread of another, or quotes it. -/
def Message.Refers (message : Message) (other : String) : Prop :=
  message.parent_id = some other ∨ message.reply_to_id = some other

/-- Every message is in a channel, refers to messages of that channel only, and comes after them. -/
structure Sound (tables : Tables) : Prop where
  filled : "" ∉ tables.message.keys
  placed : ∀ id message, tables.message.get? id = some message →
    ∃ channel_id, message.channel_id = some channel_id
  inside : ∀ id message other found, tables.message.get? id = some message →
    message.Refers other → tables.message.get? other = some found →
      found.channel_id = message.channel_id
  ordered : ∃ rank : String → Nat, ∀ id message other, tables.message.get? id = some message →
    message.Refers other → rank other < rank id

/-- The channel and the references of a message are those it had. -/
structure SamePlace (old new : Message) : Prop where
  channel : new.channel_id = old.channel_id
  parent : new.parent_id = old.parent_id
  reply : new.reply_to_id = old.reply_to_id

theorem SamePlace.refers {old new : Message} (same : SamePlace old new) (other : String) :
    new.Refers other ↔ old.Refers other := by
  unfold Message.Refers
  rw [same.parent, same.reply]

theorem samePlace_updated (now : Int) (content : String) (data message_meta : Option Fields)
    (message : Message) : SamePlace message (updated now content data message_meta message) :=
  ⟨rfl, rfl, rfl⟩

theorem samePlace_pinned (now : Int) (is_pinned : Bool) (pinned_by : String) (message : Message) :
    SamePlace message (pinned now is_pinned pinned_by message) := ⟨rfl, rfl, rfl⟩

section Step

variable {tables after : Tables} {event : Event}

theorem sound_of_kept (sound : Sound tables)
    (kept : ∀ id message, after.message.get? id = some message →
      ∃ old, tables.message.get? id = some old ∧ SamePlace old message) : Sound after where
  filled := by
    intro member
    obtain ⟨message, found⟩ := Dict.exists_of_mem_keys member
    obtain ⟨old, was, _⟩ := kept "" message found
    exact sound.filled (Dict.mem_keys_of_get? was)
  placed := by
    intro id message found
    obtain ⟨old, was, same⟩ := kept id message found
    rw [same.channel]
    exact sound.placed id old was
  inside := by
    intro id message other row found refers stored
    obtain ⟨old, was, same⟩ := kept id message found
    obtain ⟨target, there, same'⟩ := kept other row stored
    rw [same.channel, same'.channel]
    exact sound.inside id old other target was ((same.refers other).mp refers) there
  ordered := by
    obtain ⟨rank, ordered⟩ := sound.ordered
    refine ⟨rank, ?_⟩
    intro id message other found refers
    obtain ⟨old, was, same⟩ := kept id message found
    exact ordered id old other was ((same.refers other).mp refers)

theorem sound_modify (sound : Sound tables) {id : String} {change : Message → Message}
    (place : ∀ message, SamePlace message (change message))
    (messages : after.message = tables.message.modify id change) : Sound after := by
  refine sound_of_kept sound ?_
  intro other message found
  rw [messages] at found
  rcases Dict.get?_modify_cases found with ⟨_, old, was, rfl⟩ | ⟨_, stored⟩
  · exact ⟨old, was, place old⟩
  · exact ⟨message, stored, rfl, rfl, rfl⟩

theorem sound_set (sound : Sound tables) {uuid channel_id : String} (new : Unused tables uuid)
    {row : Message} (placed : row.channel_id = some channel_id)
    (refers : ∀ other, row.Refers other → other ≠ "" →
      ∃ message, tables.message.get? other = some message ∧ message.channel_id = some channel_id)
    (messages : after.message = tables.message.set uuid row) : Sound after where
  filled := by
    rw [messages, Dict.mem_keys_set]
    rintro (same | member)
    · exact new.filled same.symm
    · exact sound.filled member
  placed := by
    intro id message found
    rw [messages, Dict.get?_set] at found
    split at found
    · obtain rfl := Option.some.inj found
      exact ⟨channel_id, placed⟩
    · exact sound.placed id message found
  inside := by
    intro id message other found stored names target
    rw [messages, Dict.get?_set] at stored target
    split at stored
    · obtain rfl := Option.some.inj stored
      have fresh : uuid ≠ other := by
        rintro rfl
        obtain ⟨row', stored', _⟩ := refers uuid names new.filled
        exact new.message (Dict.mem_keys_of_get? stored')
      rw [if_neg fresh] at target
      have filled : other ≠ "" := by
        rintro rfl
        exact sound.filled (Dict.mem_keys_of_get? target)
      obtain ⟨message, there, inside⟩ := refers other names filled
      obtain rfl := Option.some.inj (target.symm.trans there)
      rw [inside, placed]
    · have fresh : uuid ≠ other := by
        rintro rfl
        rcases names with parent | reply
        · exact new.parent id message stored parent
        · exact new.reply id message stored reply
      rw [if_neg fresh] at target
      exact sound.inside id message other found stored names target
  ordered := by
    obtain ⟨rank, ordered⟩ := sound.ordered
    -- The new message is put above those it refers to, and nothing refers to it.
    refine ⟨fun id => if uuid = id then
      rank (row.parent_id.getD "") + rank (row.reply_to_id.getD "") + 1 else rank id, ?_⟩
    intro id message other stored names
    rw [messages, Dict.get?_set] at stored
    dsimp only
    split at stored
    · obtain rfl := Option.some.inj stored
      have fresh : uuid ≠ other := by
        rintro rfl
        obtain ⟨row', stored', _⟩ := refers uuid names new.filled
        exact new.message (Dict.mem_keys_of_get? stored')
      rename_i same
      rw [if_neg fresh, if_pos same]
      rcases names with parent | reply
      · rw [parent, Option.getD_some]
        omega
      · rw [reply, Option.getD_some]
        omega
    · rename_i apart
      have fresh : uuid ≠ other := by
        rintro rfl
        rcases names with parent | reply
        · exact new.parent id message stored parent
        · exact new.reply id message stored reply
      rw [if_neg fresh, if_neg apart]
      exact ordered id message other stored names

theorem sound_step (sound : Sound tables) (stepped : step tables event = some after) :
    Sound after := by
  obtain ⟨new, rfl⟩ := step_eq_some.mp stepped
  rcases handle_cases tables event with ⟨same, _⟩ | accepted
  · rw [same]
    exact sound
  · cases messages_cases accepted with
    | same silent messages =>
      refine sound_of_kept sound ?_
      intro id message found
      rw [messages] at found
      exact ⟨message, found, rfl, rfl, rfl⟩
    | posted id form asked parent reply messages =>
      refine sound_set sound new rfl ?_ messages
      intro other names filled
      have named : ∀ {reference : Option String}, reference = some other →
          given reference = some other := by
        rintro _ rfl
        exact Option.filter_eq_some_iff.mpr ⟨rfl, decide_eq_true filled⟩
      rcases names with names | names
      · exact checkReference_ok parent (named names)
      · exact checkReference_ok reply (named names)
    | webhookPosted webhook_id token content webhook asked known messages =>
      refine sound_set sound new rfl ?_ messages
      rintro other (names | names) <;> cases names
    | updated id message_id form message asked found inside messages =>
      exact sound_modify sound (samePlace_updated _ _ _ _) messages
    | emitted id message_id content finished output message asked found inside messages =>
      exact sound_modify sound (samePlace_updated _ _ _ _) messages
    | pinned id message_id is_pinned message asked found inside messages =>
      exact sound_modify sound (samePlace_pinned _ _ _) messages
    | deleted id message_id message asked found inside messages =>
      refine sound_of_kept sound ?_
      intro other row stored
      rw [messages, Dict.get?_erase] at stored
      split at stored
      · cases stored
      · exact ⟨row, stored, rfl, rfl, rfl⟩

theorem sound_of_none {tables : Tables} (none : tables.message = Dict.empty) : Sound tables where
  filled := by
    rw [none]
    exact List.not_mem_nil
  placed := by
    intro id message stored
    rw [none] at stored
    cases stored
  inside := by
    intro id message other found stored
    rw [none] at stored
    cases stored
  ordered := by
    refine ⟨fun _ => 0, ?_⟩
    intro id message other stored
    rw [none] at stored
    cases stored

end Step

section Reading

variable {tables : Tables}

theorem senderOf_ne_diverges (message : Message) : senderOf tables message ≠ .error .diverges := by
  unfold senderOf webhookInfo
  repeat' split
  all_goals simp [Except.map]

theorem get_message_succ {fuel : Nat} {id : String} {message : Message}
    (found : tables.message.get? id = some message) :
    get_message tables (fuel + 1) id =
      (response tables (get_message tables fuel) (id, message)).map some := by
  rw [get_message, found]

theorem response_none {reads : String → Except PyError (Option MessageReplyToResponse)}
    {row : String × Message} (named : given row.2.reply_to_id = none) :
    response tables reads row =
      (senderOf tables row.2).map (fun user => ⟨⟨row.1, row.2, none, user⟩, none⟩) := by
  unfold response replyOf
  rw [named]
  cases senderOf tables row.2 <;> rfl

theorem response_some {reads : String → Except PyError (Option MessageReplyToResponse)}
    {row : String × Message} {other : String} (named : given row.2.reply_to_id = some other) :
    response tables reads row = (reads other).bind (fun found =>
      (senderOf tables row.2).map (fun user =>
        ⟨⟨row.1, row.2, none, user⟩, found.map (fun found => slim found.shown)⟩)) := by
  unfold response replyOf
  rw [named]
  dsimp only
  cases reads other with
  | error error => rfl
  | ok found => cases senderOf tables row.2 <;> rfl

theorem response_congr {reads reads' : String → Except PyError (Option MessageReplyToResponse)}
    {row : String × Message}
    (same : ∀ other, given row.2.reply_to_id = some other → reads other = reads' other) :
    response tables reads row = response tables reads' row := by
  cases named : given row.2.reply_to_id with
  | none => rw [response_none named, response_none named]
  | some other => rw [response_some named, response_some named, same other named]

theorem response_ne_diverges {reads : String → Except PyError (Option MessageReplyToResponse)}
    {row : String × Message}
    (ends : ∀ other, given row.2.reply_to_id = some other → reads other ≠ .error .diverges) :
    (response tables reads row).map some ≠ .error .diverges := by
  have sender := @senderOf_ne_diverges tables row.2
  cases named : given row.2.reply_to_id with
  | none =>
    rw [response_none named]
    cases senders : senderOf tables row.2 with
    | error error => simpa [Except.map, senders] using sender
    | ok user => simp [Except.map]
  | some other =>
    have end_other := ends other named
    rw [response_some named]
    cases reading : reads other with
    | error error => simpa [Except.bind, Except.map, reading] using end_other
    | ok found =>
      cases senders : senderOf tables row.2 with
      | error error => simpa [Except.bind, Except.map, senders] using sender
      | ok user => simp [Except.bind, Except.map]

theorem get_message_ends {rank : String → Nat}
    (ordered : ∀ id message other, tables.message.get? id = some message →
      message.Refers other → rank other < rank id) :
    ∀ (fuel : Nat) (seen : List String) (id : String), seen.Nodup →
      seen ⊆ tables.message.keys → (∀ above ∈ seen, rank id < rank above) →
        tables.message.keys.length + 1 ≤ fuel + seen.length →
          get_message tables fuel id ≠ .error .diverges := by
  intro fuel
  induction fuel with
  | zero =>
    intro seen id unique stored above long
    have short := unique.length_le_of_subset stored
    omega
  | succ fuel ih =>
    intro seen id unique stored above long
    cases found : tables.message.get? id with
    | none =>
      rw [get_message, found]
      simp
    | some message =>
      rw [get_message_succ found]
      refine response_ne_diverges ?_
      intro other named
      have lower : rank other < rank id :=
        ordered id message other found (Or.inr (given_eq_some.mp named).1)
      refine ih (id :: seen) other ?_ ?_ ?_ ?_
      · refine List.nodup_cons.mpr ⟨fun again => ?_, unique⟩
        exact absurd (above id again) (Nat.lt_irrefl _)
      · exact List.cons_subset.mpr ⟨Dict.mem_keys_of_get? found, stored⟩
      · intro higher member
        rcases List.mem_cons.mp member with rfl | member
        · exact lower
        · exact lower.trans (above higher member)
      · rw [List.length_cons]
        omega

theorem get_message_stable {fuel : Nat} {id : String}
    (ends : get_message tables fuel id ≠ .error .diverges) :
    get_message tables (fuel + 1) id = get_message tables fuel id := by
  induction fuel generalizing id with
  | zero => exact absurd rfl ends
  | succ fuel ih =>
    cases found : tables.message.get? id with
    | none => rw [get_message, get_message, found]
    | some message =>
      rw [get_message_succ found] at ends
      rw [get_message_succ found, get_message_succ found, response_congr]
      intro other named
      refine ih (fun diverges => ends ?_)
      rw [response_some named, diverges]
      rfl

theorem read_eq (sound : Sound tables) (id : String) :
    read tables id = match tables.message.get? id with
      | none => .ok none
      | some message => (response tables (read tables) (id, message)).map some := by
  cases found : tables.message.get? id with
  | none =>
    rw [read, enough, get_message, found]
  | some message =>
    rw [read, enough, get_message_succ found]
    dsimp only
    rw [response_congr]
    intro other named
    obtain ⟨rank, ordered⟩ := sound.ordered
    have lower : rank other < rank id :=
      ordered id message other found (Or.inr (given_eq_some.mp named).1)
    have ends := get_message_ends ordered tables.message.keys.length [id] other
      (List.nodup_singleton id)
      (List.cons_subset.mpr ⟨Dict.mem_keys_of_get? found, List.nil_subset _⟩)
      (fun above member => by rw [List.mem_singleton.mp member]; exact lower) (by simp)
    exact (get_message_stable ends).symm

theorem readAll_mem {rows : List (String × Message)} {listing : List MessageReplyToResponse}
    (done : readAll tables rows = .ok listing) {found : MessageReplyToResponse}
    (member : found ∈ listing) :
    ∃ row ∈ rows, response tables (read tables) row = .ok found := by
  have answered : Except.ok found ∈ rows.map (response tables (read tables)) := by
    rw [map_of_mapM done]
    exact List.mem_map_of_mem member
  exact List.mem_map.mp answered

theorem mem_of_mem_page {α : Type} {skip limit : Nat} {rows : List α} {row : α}
    (member : row ∈ page skip limit rows) : row ∈ rows :=
  List.mem_of_mem_drop (List.mem_of_mem_take member)

theorem page_all {α : Type} {limit : Nat} {rows : List α} (enough : rows.length ≤ limit) :
    page 0 limit rows = rows := List.take_of_length_le enough

theorem mem_newestFirst {rows : List (String × Message)} {row : String × Message} :
    row ∈ newestFirst rows ↔ row ∈ rows := List.mem_mergeSort

theorem mem_topLevel {channel_id : String} {row : String × Message} :
    row ∈ topLevel tables channel_id ↔ tables.message.get? row.1 = some row.2 ∧
      row.2.channel_id = some channel_id ∧ row.2.parent_id = none := by
  rw [topLevel, List.mem_filter, Bool.and_eq_true, decide_eq_true_eq, decide_eq_true_eq,
    ← Dict.mem_entries_iff]

theorem mem_threadOf {channel_id parent_id : String} {row : String × Message} :
    row ∈ threadOf tables channel_id parent_id ↔ tables.message.get? row.1 = some row.2 ∧
      row.2.channel_id = some channel_id ∧ row.2.parent_id = some parent_id := by
  rw [threadOf, List.mem_filter, Bool.and_eq_true, decide_eq_true_eq, decide_eq_true_eq,
    ← Dict.mem_entries_iff]

end Reading

end OpenWebui.Channels
