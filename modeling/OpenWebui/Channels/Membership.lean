import OpenWebui.Base.Runs
import OpenWebui.Channels.Members

/-! Nobody becomes a member of a group or dm channel but by a request that names them, exactly when
every webhook that posts into one was made by one of its members. -/

namespace OpenWebui.Channels

/-- A group or dm channel that is there. -/
def ClosedAt (tables : Tables) (id : String) : Prop :=
  ∃ channel, tables.channel.get? id = some channel ∧ channel.closed = true

/-- The request makes a channel or adds members, and the user is among those it collects. -/
def Names (tables : Tables) (event : Event) (user_id : String) : Prop :=
  (∃ form users, event.opens? = some (form, users) ∧ user_id ∈
      collect_unique_user_ids tables.access event.caller.id form.user_ids form.group_ids) ∨
    ∃ id user_ids group_ids, event.request = .add_members_by_id id user_ids group_ids ∧ user_id ∈
      collect_unique_user_ids tables.access event.caller.id (some user_ids) (some group_ids)

/-- One of the requests of a run names the user. -/
def NamedIn (old : Tables) (during : List Event) (user_id : String) : Prop :=
  ∃ earlier event later middle, during = earlier ++ event :: later ∧
    earlier.foldlM step old = some middle ∧ Names middle event user_id

/-- From any state of a run on, whoever becomes a member of a group or dm channel, and so may use
it, is named by a request. -/
def ByRequest (start : Tables) (run : List Event) : Prop :=
  ∀ before during after old new, run = before ++ during ++ after →
    before.foldlM step start = some old → during.foldlM step old = some new →
      ∀ id user_id, ClosedAt new id → user_id ∉ memberIds old id →
        (user_id ∈ memberIds new id → NamedIn old during user_id) ∧
          ∀ caller channel permission strict, caller.id = user_id →
            new.channel.get? id = some channel →
              mayUse new caller id channel permission strict = true → NamedIn old during user_id

/-- A webhook that posts into a group or dm channel was made by one of its members. -/
def CreatorInside (tables : Tables) (event : Event) : Prop :=
  ∀ webhook_id token content, event.request = .post_webhook_message webhook_id token content →
    event.enabled = true →
      ∀ webhook, get_webhook_by_id_and_token tables webhook_id token = some webhook →
        ClosedAt tables webhook.channel_id →
          webhook.user_id ∈ memberIds tables webhook.channel_id

section Step

variable {tables after : Tables} {event : Event}

theorem member_of_step (inside : CreatorInside tables event)
    (stepped : step tables event = some after) {id user_id : String} (closed : ClosedAt after id)
    (member : user_id ∈ memberIds after id) :
    (ClosedAt tables id ∧ user_id ∈ memberIds tables id) ∨ Names tables event user_id := by
  obtain ⟨new, rfl⟩ := step_eq_some.mp stepped
  rcases handle_cases tables event with ⟨same, _⟩ | accepted
  · rw [same] at closed member
    exact Or.inl ⟨closed, member⟩
  · obtain ⟨channel, found, kind⟩ := closed
    cases members_cases new accepted with
    | same idle channels members =>
      rw [channels] at found
      rw [members] at member
      exact Or.inl ⟨⟨channel, found, kind⟩, member⟩
    | opened form users asked type absent channels members =>
      rw [members] at member
      rw [channels, Dict.get?_set] at found
      split at member
      · split at member
        · exact Or.inr (Or.inl ⟨form, users, asked, member⟩)
        · cases member
      · rename_i other
        rw [if_neg other] at found
        exact Or.inl ⟨⟨channel, found, kind⟩, member⟩
    | added other user_ids group_ids row asked stored channels members =>
      rw [members] at member
      rw [channels] at found
      rcases List.mem_append.mp member with before | more
      · exact Or.inl ⟨⟨channel, found, kind⟩, before⟩
      · split at more
        · exact Or.inr (Or.inr ⟨other, user_ids, group_ids, asked, (List.mem_filter.mp more).1⟩)
        · cases more
    | removed other user_ids row asked stored channels members =>
      rw [members] at member
      rw [channels] at found
      exact Or.inl ⟨⟨channel, found, kind⟩, (List.mem_filter.mp member).1⟩
    | joined other joining row idle stored standard channels members =>
      rw [members] at member
      rw [channels] at found
      rcases List.mem_append.mp member with before | more
      · exact Or.inl ⟨⟨channel, found, kind⟩, before⟩
      · split at more
        · rename_i here
          obtain ⟨rfl, _⟩ := here
          obtain rfl := Option.some.inj (stored.symm.trans found)
          rw [standard] at kind
          cases kind
        · cases more
    | webhookPosted webhook_id token content webhook row asked enabled known stored channels members =>
      rw [members] at member
      rw [channels] at found
      rcases List.mem_append.mp member with before | more
      · exact Or.inl ⟨⟨channel, found, kind⟩, before⟩
      · split at more
        · rename_i here
          obtain ⟨rfl, outside⟩ := here
          exact absurd (inside webhook_id token content asked enabled webhook known
            ⟨channel, found, kind⟩) outside
        · cases more
    | channelDeleted other idle channels members =>
      rw [members] at member
      rw [channels, Dict.get?_erase] at found
      split at found
      · cases found
      · exact Or.inl ⟨⟨channel, found, kind⟩, member⟩

theorem handle_webhook {webhook_id token content : String} {webhook : ChannelWebhook}
    {channel : Channel} (asked : event.request = .post_webhook_message webhook_id token content)
    (enabled : event.enabled = true)
    (known : get_webhook_by_id_and_token tables webhook_id token = some webhook)
    (found : tables.channel.get? webhook.channel_id = some channel) :
    (handle tables event).tables = insert_new_message event.fresh tables
      (webhookForm webhook_id content) webhook.channel_id webhook.user_id := by
  have passes : checkRequest event = .ok () := by
    rw [checkRequest, asked]
    exact if_pos enabled
  have finds : findChannel tables webhook.channel_id = .ok channel := by
    rw [findChannel, found]
  have done : answered tables event = .ok (announce (insert_new_message event.fresh tables
      (webhookForm webhook_id content) webhook.channel_id webhook.user_id) webhook.channel_id
        event.fresh.uuid (fun message => { message with shown := { message.shown with
          user := some (.webhook webhook_id webhook.name) } })) := by
    refine bind_eq_ok.mpr ⟨(), passes, ?_⟩
    rw [asked, route, post_webhook_message, known]
    exact bind_eq_ok.mpr ⟨channel, finds, rfl⟩
  rw [handle, done, announce_tables]

end Step

theorem member_of_run {start final : Tables} {run : List Event}
    (ran : run.foldlM step start = some final)
    (inside : Runs.Always (fun earlier event => ∀ tables, earlier.foldlM step start = some tables →
      CreatorInside tables event) run) {id user_id : String} (closed : ClosedAt final id)
    (member : user_id ∈ memberIds final id) :
    (ClosedAt start id ∧ user_id ∈ memberIds start id) ∨ NamedIn start run user_id := by
  induction run generalizing start with
  | nil =>
    obtain rfl := Option.some.inj ran
    exact Or.inl ⟨closed, member⟩
  | cons event rest ih =>
    rw [List.foldlM_cons, Option.bind_eq_bind, Option.bind_eq_some_iff] at ran
    obtain ⟨next, stepped, ran⟩ := ran
    obtain ⟨first, always⟩ := Runs.always_cons.mp inside
    have later : Runs.Always (fun earlier event => ∀ tables, earlier.foldlM step next = some tables →
        CreatorInside tables event) rest := by
      intro earlier other remains split tables reached
      refine always earlier other remains split tables ?_
      rw [List.foldlM_cons, stepped]
      exact reached
    rcases ih ran later with ⟨kind, before⟩ | ⟨earlier, other, remains, middle, split, reached, names⟩
    · rcases member_of_step (first start rfl) stepped kind before with was | names
      · exact Or.inl was
      · exact Or.inr ⟨[], event, rest, start, rfl, rfl, names⟩
    · refine Or.inr ⟨event :: earlier, other, remains, middle, by rw [split]; rfl, ?_, names⟩
      rw [List.foldlM_cons, stepped]
      exact reached

/-- Nobody becomes a member in a run unless a request names them, exactly when every webhook that
posts was made by a member. -/
theorem membership_by_request_iff {start final : Tables} {run : List Event}
    (ran : run.foldlM step start = some final) :
    ByRequest start run ↔ Runs.Always (fun earlier event =>
      ∀ tables, earlier.foldlM step start = some tables → CreatorInside tables event) run := by
  constructor
  · intro byRequest earlier event later split old reached webhook_id token content asked enabled
      webhook known closed
    by_contra outside
    obtain ⟨channel, found, kind⟩ := closed
    rw [split, List.foldlM_append, reached] at ran
    change (event :: later).foldlM step old = some final at ran
    rw [List.foldlM_cons, Option.bind_eq_bind, Option.bind_eq_some_iff] at ran
    obtain ⟨next, stepped, _⟩ := ran
    obtain ⟨_, left⟩ := step_eq_some.mp stepped
    rw [handle_webhook asked enabled known found] at left
    have channels : next.channel = old.channel := by
      rw [← left]
      exact (insert_new_message_frame _ _ _ _).1
    have single : [event].foldlM step old = some next := by
      rw [List.foldlM_cons, stepped]
      rfl
    have member : webhook.user_id ∈ memberIds next webhook.channel_id := by
      rw [← left, memberIds_insert_new_message, if_pos ⟨rfl, outside⟩]
      exact List.mem_append_right _ List.mem_cons_self
    obtain ⟨before, other, remains, middle, shape, begins, names⟩ := (byRequest earlier [event] later
      old next (by rw [split]; simp) reached single webhook.channel_id webhook.user_id
      ⟨channel, channels ▸ found, kind⟩ outside).1 member
    have only : other = event := by
      have member : other ∈ [event] := by
        rw [shape]
        exact List.mem_append_right _ List.mem_cons_self
      exact List.mem_singleton.mp member
    subst only
    rcases names with ⟨form, users, opens, _⟩ | ⟨_, _, _, adds, _⟩
    · rw [Event.opens?, asked] at opens
      cases opens
    · rw [asked] at adds
      cases adds
  · intro always before during after old new split begins goes id user_id closed outside
    have inside : Runs.Always (fun earlier event => ∀ tables, earlier.foldlM step old = some tables →
        CreatorInside tables event) during := by
      intro earlier event later shape tables reached
      refine always (before ++ earlier) event (later ++ after) ?_ tables ?_
      · rw [split, shape]
        simp
      · rw [List.foldlM_append, begins]
        exact reached
    have named : user_id ∈ memberIds new id → NamedIn old during user_id := by
      intro member
      rcases member_of_run goes inside closed member with ⟨_, was⟩ | names
      · exact absurd was outside
      · exact names
    refine ⟨named, ?_⟩
    rintro caller channel permission strict rfl found use
    obtain ⟨row, stored, kind⟩ := closed
    obtain rfl := Option.some.inj (stored.symm.trans found)
    rw [mayUse, if_pos kind] at use
    exact named (mem_of_is_user_channel_member use)

def noChannels : Tables := ⟨⟨[], [], [], []⟩, Dict.empty, [], Dict.empty, Dict.empty, []⟩

def byAdmin (user_id uuid : String) (request : Request) : Event where
  enabled := true
  caller := ⟨user_id, "admin", fun _ => .ok true⟩
  fresh := ⟨1, uuid, "secret", fun _ => "grant"⟩
  request := request

def webhookRun : List Event :=
  [byAdmin "ann" "c" (.create_new_channel ⟨some "group", none, none, some ["bob"]⟩),
    byAdmin "ann" "w" (.create_channel_webhook "c" "news"),
    byAdmin "" "m" (.post_webhook_message "w" "secret" "Good morning")]

theorem webhook_of_member_joins_nobody : ByRequest noChannels webhookRun := by
  obtain ⟨final, ran⟩ := Option.isSome_iff_exists.mp
    (by decide +kernel : (webhookRun.foldlM step noChannels).isSome = true)
  refine (membership_by_request_iff ran).mpr ?_
  unfold webhookRun
  rw [Runs.always_cons, Runs.always_cons, Runs.always_cons]
  refine ⟨?_, ?_, ?_, Runs.always_nil _⟩
  · intro tables _ webhook_id token content asked
    cases asked
  · intro tables _ webhook_id token content asked
    cases asked
  · intro tables reached webhook_id token content asked _ webhook known _
    obtain ⟨rfl, _, _⟩ := Request.post_webhook_message.inj asked
    have inside : (((webhookRun.take 2).foldlM step noChannels).all (fun tables =>
        (tables.webhook.get? "w").all (fun webhook =>
          decide (webhook.user_id ∈ memberIds tables webhook.channel_id)))) = true := by
      decide +kernel
    have here : (webhookRun.take 2).foldlM step noChannels = some tables := reached
    have stored := (Option.filter_eq_some_iff.mp known).1
    rw [here, Option.all_some, stored, Option.all_some] at inside
    exact of_decide_eq_true inside

def leftRun : List Event :=
  [byAdmin "ann" "c" (.create_new_channel ⟨some "group", none, none, some ["bob"]⟩),
    byAdmin "bob" "w" (.create_channel_webhook "c" "news"),
    byAdmin "ann" "x" (.remove_members_by_id "c" ["bob"]),
    byAdmin "" "m" (.post_webhook_message "w" "secret" "Good morning")]

theorem webhook_joins_its_creator :
    ¬ ∀ (start final : Tables) (run : List Event), run.foldlM step start = some final →
      ByRequest start run := by
  intro always
  obtain ⟨final, ran⟩ := Option.isSome_iff_exists.mp
    (by decide +kernel : (leftRun.foldlM step noChannels).isSome = true)
  have byRequest := always noChannels final leftRun ran
  obtain ⟨old, reached⟩ := Option.isSome_iff_exists.mp
    (by decide +kernel : ((leftRun.take 3).foldlM step noChannels).isSome = true)
  have goes : (leftRun.drop 3).foldlM step old = some final := by
    have whole : (leftRun.take 3 ++ leftRun.drop 3).foldlM step noChannels = some final := ran
    rw [List.foldlM_append, reached] at whole
    exact whole
  have outside : (((leftRun.take 3).foldlM step noChannels).all (fun tables =>
      decide ("bob" ∉ memberIds tables "c"))) = true := by
    decide +kernel
  have member : ((leftRun.foldlM step noChannels).all (fun tables =>
      decide ("bob" ∈ memberIds tables "c") &&
        (tables.channel.get? "c").any (fun channel => channel.closed))) = true := by
    decide +kernel
  rw [reached, Option.all_some] at outside
  rw [ran, Option.all_some, Bool.and_eq_true] at member
  obtain ⟨channel, found, kind⟩ := (Option.any_eq_true _ _).mp member.2
  obtain ⟨earlier, event, later, middle, split, _, names⟩ := (byRequest (leftRun.take 3)
    (leftRun.drop 3) [] old final rfl reached goes "c" "bob" ⟨channel, found, kind⟩
    (of_decide_eq_true outside)).1 (of_decide_eq_true member.1)
  have only : event ∈ leftRun.drop 3 := by
    rw [split]
    exact List.mem_append_right _ List.mem_cons_self
  obtain rfl := List.mem_singleton.mp only
  rcases names with ⟨form, users, opens, _⟩ | ⟨_, _, _, adds, _⟩
  · cases opens
  · cases adds

end OpenWebui.Channels
