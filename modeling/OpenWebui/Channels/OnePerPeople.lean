import Mathlib.Data.List.Perm.Subperm
import OpenWebui.Channels.Membership

/-! There is one dm channel for a set of members, and the look up by its members finds it, exactly
when no request gives a dm channel the members that another one has. -/

namespace OpenWebui.Channels

/-- A dm channel that is there. -/
def IsDm (tables : Tables) (id : String) : Prop :=
  ∃ channel, tables.channel.get? id = some channel ∧ channel.type = some "dm"

/-- The same users, in any order and with repetitions. -/
def SameUsers (first second : List String) : Prop := ∀ user_id, user_id ∈ first ↔ user_id ∈ second

/-- One dm channel for a set of members, found by them. -/
structure OnePerPeople (tables : Tables) : Prop where
  single : ∀ first second, IsDm tables first → IsDm tables second →
    SameUsers (memberIds tables first) (memberIds tables second) → first = second
  found : ∀ id user_ids, IsDm tables id → SameUsers user_ids (memberIds tables id) →
    (get_dm_channel_by_user_ids tables user_ids).map Prod.fst = some id

/-- Nobody is a member of a channel twice. -/
def Distinct (tables : Tables) : Prop := ∀ id, (memberIds tables id).Nodup

/-- No other dm channel has these members. -/
def Separate (tables : Tables) (id : String) (users : List String) : Prop :=
  ∀ other, IsDm tables other → other ≠ id → ¬ SameUsers (memberIds tables other) users

/-- The members that a request gives to a dm channel are not those of another one, and are not
nobody. -/
structure Apart (tables : Tables) (event : Event) : Prop where
  opened : ∀ form users, event.opens? = some (form, some users) →
    get_dm_channel_by_user_ids tables users = none → Separate tables event.fresh.uuid
      (collect_unique_user_ids tables.access event.caller.id form.user_ids form.group_ids)
  added : ∀ id user_ids group_ids, event.request = .add_members_by_id id user_ids group_ids →
    IsDm tables id → Separate tables id (memberIds tables id ++
      collect_unique_user_ids tables.access event.caller.id (some user_ids) (some group_ids))
  removed : ∀ id user_ids, event.request = .remove_members_by_id id user_ids → IsDm tables id →
    (∃ user_id ∈ memberIds tables id, user_id ∉ user_ids) ∧ Separate tables id
      ((memberIds tables id).filter (fun user_id => decide (user_id ∉ user_ids)))
  posted : ∀ webhook_id token content webhook,
    event.request = .post_webhook_message webhook_id token content →
      get_webhook_by_id_and_token tables webhook_id token = some webhook →
        IsDm tables webhook.channel_id → Separate tables webhook.channel_id
          (webhook.user_id :: memberIds tables webhook.channel_id)

theorem sameUsers_trans {first second third : List String} (left : SameUsers first second)
    (right : SameUsers second third) : SameUsers first third := by
  intro user_id
  rw [left user_id, right user_id]

theorem sameUsers_symm {first second : List String} (same : SameUsers first second) :
    SameUsers second first := fun user_id => (same user_id).symm

section Lookup

variable {tables : Tables}

theorem matchesUsers_iff {id : String} (distinct : (memberIds tables id).Nodup)
    (user_ids : List String) :
    matchesUsers tables user_ids.dedup id = true ↔
      memberIds tables id ≠ [] ∧ SameUsers user_ids (memberIds tables id) := by
  have unique : user_ids.dedup.Nodup := List.nodup_dedup user_ids
  simp only [matchesUsers, Bool.and_eq_true, Bool.not_eq_true', List.isEmpty_eq_false_iff,
    decide_eq_true_eq, and_assoc, List.mem_dedup]
  refine and_congr_right (fun _ => ?_)
  constructor
  · rintro ⟨count, matched⟩
    -- All of the members are matched, so they are among the users.
    have all : (memberIds tables id).filter (fun id => decide (id ∈ user_ids)) =
        memberIds tables id :=
      List.filter_sublist.eq_of_length (matched.trans count.symm)
    have inside : memberIds tables id ⊆ user_ids.dedup := by
      intro user_id member
      rw [← all] at member
      exact List.mem_dedup.mpr (of_decide_eq_true (List.mem_filter.mp member).2)
    have perm : (memberIds tables id).Perm user_ids.dedup :=
      (List.subperm_of_subset distinct inside).perm_of_length_le count.ge
    intro user_id
    rw [perm.mem_iff, List.mem_dedup]
  · intro same
    have perm : (memberIds tables id).Perm user_ids.dedup := by
      refine (List.perm_ext_iff_of_nodup distinct unique).mpr (fun user_id => ?_)
      rw [List.mem_dedup, same user_id]
    have all : (memberIds tables id).filter (fun id => decide (id ∈ user_ids)) =
        memberIds tables id := by
      rw [List.filter_eq_self]
      intro user_id member
      exact decide_eq_true ((same user_id).mpr member)
    rw [all]
    exact ⟨perm.length_eq, perm.length_eq⟩

theorem get_dm_eq_some {user_ids : List String} {row : String × Channel}
    (distinct : Distinct tables)
    (known : get_dm_channel_by_user_ids tables user_ids = some row) :
    IsDm tables row.1 ∧ memberIds tables row.1 ≠ [] ∧
      SameUsers user_ids (memberIds tables row.1) := by
  have stored := List.mem_of_find?_eq_some known
  have found := List.find?_some known
  rw [Bool.and_eq_true, decide_eq_true_eq, matchesUsers_iff (distinct row.1)] at found
  exact ⟨⟨row.2, Dict.mem_entries_iff.mp stored, found.2⟩, found.1⟩

theorem get_dm_ne_none {user_ids : List String} {id : String} (distinct : Distinct tables)
    (dm : IsDm tables id) (members : memberIds tables id ≠ [])
    (same : SameUsers user_ids (memberIds tables id)) :
    get_dm_channel_by_user_ids tables user_ids ≠ none := by
  obtain ⟨channel, found, type⟩ := dm
  intro absent
  have unmatched := List.find?_eq_none.mp absent (id, channel) (Dict.mem_entries_iff.mpr found)
  rw [Bool.and_eq_true, decide_eq_true_eq, matchesUsers_iff (distinct id)] at unmatched
  exact unmatched ⟨⟨members, same⟩, type⟩

/-- One dm channel for a set of members, and none without members. -/
structure OneEach (tables : Tables) : Prop where
  single : ∀ first second, IsDm tables first → IsDm tables second →
    SameUsers (memberIds tables first) (memberIds tables second) → first = second
  somebody : ∀ id, IsDm tables id → memberIds tables id ≠ []

theorem onePerPeople_iff (distinct : Distinct tables) : OnePerPeople tables ↔ OneEach tables := by
  constructor
  · intro one
    refine ⟨one.single, ?_⟩
    intro id dm
    have finds := one.found id (memberIds tables id) dm (fun _ => Iff.rfl)
    obtain ⟨row, known, rfl⟩ := Option.map_eq_some_iff.mp finds
    exact (get_dm_eq_some distinct known).2.1
  · intro each
    refine ⟨each.single, ?_⟩
    intro id user_ids dm same
    obtain ⟨row, known⟩ := Option.ne_none_iff_exists'.mp
      (get_dm_ne_none distinct dm (each.somebody id dm) same)
    obtain ⟨dm', _, same'⟩ := get_dm_eq_some distinct known
    rw [known, Option.map_some, Option.some.injEq]
    exact each.single row.1 id dm' dm (sameUsers_trans (sameUsers_symm same') same)

end Lookup

section Step

variable {tables after : Tables} {event : Event}

theorem isDm_congr (channels : after.channel = tables.channel) (id : String) :
    IsDm after id ↔ IsDm tables id := by
  unfold IsDm
  rw [channels]

theorem oneEach_of_subset (each : OneEach tables)
    (kept : ∀ id, IsDm after id → IsDm tables id ∧ memberIds after id = memberIds tables id) :
    OneEach after where
  single := by
    intro first second dm dm' same
    obtain ⟨was, members⟩ := kept first dm
    obtain ⟨was', members'⟩ := kept second dm'
    rw [members, members'] at same
    exact each.single first second was was' same
  somebody := by
    intro id dm
    obtain ⟨was, members⟩ := kept id dm
    rw [members]
    exact each.somebody id was

theorem oneEach_change_iff (each : OneEach tables) {id : String} {users : List String}
    (others : ∀ other, other ≠ id →
      (IsDm after other ↔ IsDm tables other) ∧ memberIds after other = memberIds tables other)
    (dm : IsDm after id) (members : SameUsers (memberIds after id) users) :
    OneEach after ↔ (∃ user_id, user_id ∈ users) ∧ Separate tables id users := by
  constructor
  · intro each'
    constructor
    · obtain ⟨user_id, member⟩ := List.exists_mem_of_ne_nil _ (each'.somebody id dm)
      exact ⟨user_id, (members user_id).mp member⟩
    · intro other was apart same
      obtain ⟨kept, members'⟩ := others other apart
      rw [← members'] at same
      exact apart (each'.single other id (kept.mpr was) dm
        (sameUsers_trans same (sameUsers_symm members)))
  · rintro ⟨⟨user_id, member⟩, separate⟩
    have apart : ∀ other, other ≠ id → IsDm after other →
        ¬ SameUsers (memberIds after other) (memberIds after id) := by
      intro other away dm' same
      obtain ⟨kept, members'⟩ := others other away
      rw [members'] at same
      exact separate other (kept.mp dm') away (sameUsers_trans same members)
    constructor
    · intro first second dm₁ dm₂ same
      by_cases here : first = id
      · by_cases there : second = id
        · rw [here, there]
        · rw [here] at same
          exact absurd (sameUsers_symm same) (apart second there dm₂)
      · by_cases there : second = id
        · rw [there] at same
          exact absurd same (apart first here dm₁)
        · obtain ⟨kept, members₁⟩ := others first here
          obtain ⟨kept', members₂⟩ := others second there
          rw [members₁, members₂] at same
          exact each.single first second (kept.mp dm₁) (kept'.mp dm₂) same
    · intro other dm'
      by_cases here : other = id
      · rw [here]
        exact List.ne_nil_of_mem ((members user_id).mpr member)
      · obtain ⟨kept, members'⟩ := others other here
        rw [members']
        exact each.somebody other (kept.mp dm')

theorem nodup_collect (access : AccessGrants.Database) (invited_by : String)
    (user_ids group_ids : Option (List String)) :
    (collect_unique_user_ids access invited_by user_ids group_ids).Nodup := List.nodup_dedup _

theorem caller_mem_collect (access : AccessGrants.Database) (invited_by : String)
    (user_ids group_ids : Option (List String)) :
    invited_by ∈ collect_unique_user_ids access invited_by user_ids group_ids :=
  mem_collect.mpr (Or.inr (Or.inl rfl))

theorem nodup_join {members : List String} (unique : members.Nodup) {here : Prop} [Decidable here]
    {user_id : String} (outside : here → user_id ∉ members) :
    (members ++ if here then [user_id] else []).Nodup := by
  split
  · rename_i joins
    refine List.nodup_append'.mpr ⟨unique, List.nodup_singleton _, ?_⟩
    intro other member last
    obtain rfl := List.mem_singleton.mp last
    exact outside joins member
  · rwa [List.append_nil]

theorem distinct_step (distinct : Distinct tables) (stepped : step tables event = some after) :
    Distinct after := by
  obtain ⟨new, rfl⟩ := step_eq_some.mp stepped
  intro id
  rcases handle_cases tables event with ⟨same, _⟩ | accepted
  · rw [same]
    exact distinct id
  · cases members_cases new accepted with
    | same idle channels members =>
      rw [members]
      exact distinct id
    | opened form users asked type absent channels members =>
      rw [members]
      split
      · split
        · exact nodup_collect _ _ _ _
        · exact List.nodup_nil
      · exact distinct id
    | added other user_ids group_ids channel asked found channels members =>
      rw [members]
      split
      · rename_i here
        subst here
        refine List.nodup_append'.mpr ⟨distinct other, (nodup_collect _ _ _ _).filter _, ?_⟩
        intro user_id member more
        exact of_decide_eq_true (List.mem_filter.mp more).2 member
      · rw [List.append_nil]
        exact distinct id
    | removed other user_ids channel asked found channels members =>
      rw [members]
      exact (distinct id).filter _
    | joined other user_id channel idle found standard channels members =>
      rw [members]
      exact nodup_join (distinct id) (fun here => here.1 ▸ here.2)
    | webhookPosted webhook_id token content webhook channel asked enabled known found channels
        members =>
      rw [members]
      exact nodup_join (distinct id) (fun here => here.1 ▸ here.2)
    | channelDeleted other idle channels members =>
      rw [members]
      exact distinct id

theorem opens_of_plain (plain : event.request.plain = true) : event.opens? = none := by
  unfold Event.opens?
  cases asked : event.request with
  | get_dm_channel_by_user_id user_id => rw [asked] at plain; cases plain
  | create_new_channel form => rw [asked] at plain; cases plain
  | _ => rfl

theorem apart_of_opens {form : CreateChannelForm} {users : Option (List String)}
    (opens : event.opens? = some (form, users))
    (separate : ∀ user_ids, users = some user_ids →
      get_dm_channel_by_user_ids tables user_ids = none → Separate tables event.fresh.uuid
        (collect_unique_user_ids tables.access event.caller.id form.user_ids form.group_ids)) :
    Apart tables event where
  opened := by
    intro form' user_ids opens' absent
    obtain ⟨rfl, rfl⟩ := Prod.mk.inj (Option.some.inj (opens.symm.trans opens'))
    exact separate user_ids rfl absent
  added := by
    intro id user_ids group_ids asked
    rw [Event.opens?, asked] at opens
    cases opens
  removed := by
    intro id user_ids asked
    rw [Event.opens?, asked] at opens
    cases opens
  posted := by
    intro webhook_id token content webhook asked
    rw [Event.opens?, asked] at opens
    cases opens

theorem apart_of_idle (idle : Idle tables event) : Apart tables event := by
  rcases idle with plain | ⟨form, users, existing, opens, known⟩
  · constructor
    · intro form users opens
      rw [opens_of_plain plain] at opens
      cases opens
    · intro id user_ids group_ids asked
      rw [asked] at plain
      cases plain
    · intro id user_ids asked
      rw [asked] at plain
      cases plain
    · intro webhook_id token content webhook asked
      rw [asked] at plain
      cases plain
  · refine apart_of_opens opens ?_
    intro user_ids same absent
    obtain rfl := Option.some.inj same
    rw [known] at absent
    cases absent

theorem apart_added_iff {id : String} {user_ids group_ids : List String}
    (asked : event.request = .add_members_by_id id user_ids group_ids) :
    Apart tables event ↔ (IsDm tables id → Separate tables id (memberIds tables id ++
      collect_unique_user_ids tables.access event.caller.id (some user_ids) (some group_ids))) := by
  constructor
  · intro apart
    exact apart.added id user_ids group_ids asked
  · intro separate
    constructor
    · intro form users opens
      rw [Event.opens?, asked] at opens
      cases opens
    · intro other users groups asked'
      obtain ⟨rfl, rfl, rfl⟩ := Request.add_members_by_id.inj (asked.symm.trans asked')
      exact separate
    · intro other users asked'
      cases asked.symm.trans asked'
    · intro webhook_id token content webhook asked'
      cases asked.symm.trans asked'

theorem apart_removed_iff {id : String} {user_ids : List String}
    (asked : event.request = .remove_members_by_id id user_ids) :
    Apart tables event ↔ (IsDm tables id →
      (∃ user_id ∈ memberIds tables id, user_id ∉ user_ids) ∧ Separate tables id
        ((memberIds tables id).filter (fun user_id => decide (user_id ∉ user_ids)))) := by
  constructor
  · intro apart
    exact apart.removed id user_ids asked
  · intro separate
    constructor
    · intro form users opens
      rw [Event.opens?, asked] at opens
      cases opens
    · intro other users groups asked'
      cases asked.symm.trans asked'
    · intro other users asked'
      obtain ⟨rfl, rfl⟩ := Request.remove_members_by_id.inj (asked.symm.trans asked')
      exact separate
    · intro webhook_id token content webhook asked'
      cases asked.symm.trans asked'

theorem apart_posted_iff {webhook_id token content : String} {webhook : ChannelWebhook}
    (asked : event.request = .post_webhook_message webhook_id token content)
    (known : get_webhook_by_id_and_token tables webhook_id token = some webhook) :
    Apart tables event ↔ (IsDm tables webhook.channel_id → Separate tables webhook.channel_id
      (webhook.user_id :: memberIds tables webhook.channel_id)) := by
  constructor
  · intro apart
    exact apart.posted webhook_id token content webhook asked known
  · intro separate
    constructor
    · intro form users opens
      rw [Event.opens?, asked] at opens
      cases opens
    · intro other users groups asked'
      cases asked.symm.trans asked'
    · intro other users asked'
      cases asked.symm.trans asked'
    · intro webhook_id' token' content' webhook' asked' known'
      obtain ⟨rfl, rfl, rfl⟩ := Request.post_webhook_message.inj (asked.symm.trans asked')
      obtain rfl := Option.some.inj (known.symm.trans known')
      exact separate

theorem oneEach_members_iff (each : OneEach tables) (channels : after.channel = tables.channel)
    {id : String} {users : List String}
    (others : ∀ other, other ≠ id → memberIds after other = memberIds tables other)
    (members : SameUsers (memberIds after id) users) :
    OneEach after ↔
      (IsDm tables id → (∃ user_id, user_id ∈ users) ∧ Separate tables id users) := by
  by_cases dm : IsDm tables id
  · rw [oneEach_change_iff each (fun other apart => ⟨isDm_congr channels other, others other apart⟩)
      ((isDm_congr channels id).mpr dm) members]
    exact ⟨fun both _ => both, fun both => both dm⟩
  · refine iff_of_true (oneEach_of_subset each (fun other dm' => ?_)) (fun was => absurd was dm)
    have was := (isDm_congr channels other).mp dm'
    refine ⟨was, others other ?_⟩
    rintro rfl
    exact dm was

theorem oneEach_step_iff (each : OneEach tables) (stepped : step tables event = some after) :
    OneEach after ↔ (Accepts tables event → Apart tables event) := by
  refine holds_step_iff stepped each (fun outcome new done => ?_)
  cases members_cases new (accepted_of_answered done) with
  | same idle channels members =>
    refine iff_of_true (oneEach_of_subset each (fun id dm => ?_)) (apart_of_idle idle)
    exact ⟨(isDm_congr channels id).mp dm, members id⟩
  | opened form users asked type absent channels members =>
    have unused : ¬ IsDm tables event.fresh.uuid := by
      rintro ⟨channel, found, _⟩
      exact new.channel (Dict.mem_keys_of_get? found)
    have others : ∀ other, other ≠ event.fresh.uuid →
        (IsDm outcome.tables other ↔ IsDm tables other) ∧
          memberIds outcome.tables other = memberIds tables other := by
      intro other apart
      unfold IsDm
      rw [channels, members, if_neg apart.symm, Dict.get?_set, if_neg apart.symm]
      exact ⟨Iff.rfl, rfl⟩
    have made : outcome.tables.channel.get? event.fresh.uuid =
        some (channelOf form event.caller.id) := by
      rw [channels, Dict.get?_set, if_pos rfl]
    cases users with
    | none =>
      have other : form.type ≠ some "dm" := fun dm => by cases type.mp dm
      refine iff_of_true (oneEach_of_subset each (fun id dm => ?_))
        (apart_of_opens asked (fun _ none => by cases none))
      have apart : id ≠ event.fresh.uuid := by
        rintro rfl
        obtain ⟨channel, found, kind⟩ := dm
        obtain rfl := Option.some.inj (made.symm.trans found)
        exact other (Option.filter_eq_some_iff.mp kind).1
      exact ⟨(others id apart).1.mp dm, (others id apart).2⟩
    | some user_ids =>
      have dm : form.type = some "dm" := type.mpr rfl
      have kind : (channelOf form event.caller.id).type = some "dm" :=
        Option.filter_eq_some_iff.mpr ⟨dm, by decide⟩
      have closed : (channelOf form event.caller.id).closed = true := by
        rw [Channel.closed, kind]
        rfl
      have gathered : memberIds outcome.tables event.fresh.uuid =
          collect_unique_user_ids tables.access event.caller.id form.user_ids form.group_ids := by
        rw [members, if_pos rfl, if_pos closed]
      rw [oneEach_change_iff each others ⟨_, made, kind⟩ (fun user_id => by rw [gathered])]
      constructor
      · rintro ⟨_, separate⟩
        exact apart_of_opens asked (fun _ _ _ => separate)
      · intro apart
        exact ⟨⟨event.caller.id, caller_mem_collect _ _ _ _⟩,
          apart.opened form user_ids asked (absent user_ids rfl)⟩
  | added id user_ids group_ids channel asked found channels members =>
    have gathered : SameUsers (memberIds outcome.tables id) (memberIds tables id ++
        collect_unique_user_ids tables.access event.caller.id (some user_ids)
          (some group_ids)) := by
      intro user_id
      rw [members, if_pos rfl]
      simp only [List.mem_append, List.mem_filter, decide_eq_true_eq]
      tauto
    rw [apart_added_iff asked, oneEach_members_iff each channels (fun other apart => by
      rw [members, if_neg apart.symm, List.append_nil]) gathered]
    refine forall_congr' (fun dm => ?_)
    exact and_iff_right ⟨event.caller.id,
      List.mem_append_right _ (caller_mem_collect _ _ _ _)⟩
  | removed id user_ids channel asked found channels members =>
    have remaining : SameUsers (memberIds outcome.tables id)
        ((memberIds tables id).filter (fun user_id => decide (user_id ∉ user_ids))) := by
      intro user_id
      rw [members]
      simp only [List.mem_filter, decide_true, Bool.true_and, decide_not]
    rw [apart_removed_iff asked, oneEach_members_iff each channels (fun other apart => by
      rw [members]
      simp only [apart, decide_false, Bool.false_and, Bool.not_false, List.filter_true]) remaining]
    simp only [List.mem_filter, decide_eq_true_eq]
  | joined id user_id channel idle found standard channels members =>
    refine iff_of_true (oneEach_of_subset each (fun other dm => ?_)) (apart_of_idle idle)
    have was := (isDm_congr channels other).mp dm
    refine ⟨was, ?_⟩
    rw [members, if_neg, List.append_nil]
    rintro ⟨rfl, _⟩
    obtain ⟨row, stored, type⟩ := was
    obtain rfl := Option.some.inj (stored.symm.trans found)
    rw [Channel.closed, type] at standard
    cases standard
  | webhookPosted webhook_id token content webhook channel asked enabled known found channels
      members =>
    have gathered : SameUsers (memberIds outcome.tables webhook.channel_id)
        (webhook.user_id :: memberIds tables webhook.channel_id) := by
      intro user_id
      rw [members]
      by_cases inside : webhook.user_id ∈ memberIds tables webhook.channel_id
      · rw [if_neg (fun both => both.2 inside), List.append_nil, List.mem_cons]
        constructor
        · exact Or.inr
        · rintro (rfl | member)
          · exact inside
          · exact member
      · rw [if_pos ⟨rfl, inside⟩, List.mem_append, List.mem_singleton, List.mem_cons, or_comm]
    rw [apart_posted_iff asked known, oneEach_members_iff each channels (fun other apart => by
      rw [members, if_neg (fun both => apart both.1.symm), List.append_nil]) gathered]
    refine forall_congr' (fun dm => ?_)
    exact and_iff_right ⟨webhook.user_id, List.mem_cons_self⟩
  | channelDeleted id idle channels members =>
    refine iff_of_true (oneEach_of_subset each (fun other dm => ?_)) (apart_of_idle idle)
    obtain ⟨row, stored, type⟩ := dm
    rw [channels, Dict.get?_erase] at stored
    split at stored
    · cases stored
    · exact ⟨⟨row, stored, type⟩, members other⟩

end Step

/-- There is one dm channel for each set of members in every state of a run, exactly when no
accepted request of it gives a dm channel the members of another. -/
theorem one_per_people_iff {start final : Tables} {run : List Event} (distinct : Distinct start)
    (one : OnePerPeople start) (ran : run.foldlM step start = some final) :
    Runs.Throughout OnePerPeople step start run ↔ Runs.Always (fun earlier event =>
      ∀ tables, earlier.foldlM step start = some tables →
        Accepts tables event → Apart tables event) run := by
  refine @Runs.throughout_iff_of_invariant _ _ _
    (fun tables event => Accepts tables event → Apart tables event) _ Distinct
    (fun _ _ _ distinct stepped => distinct_step distinct stepped) ?_ _ _ _ distinct one ran
  intro old event new distinct one stepped
  rw [onePerPeople_iff (distinct_step distinct stepped)]
  exact oneEach_step_iff ((onePerPeople_iff distinct).mp one) stepped

theorem distinct_of_none {tables : Tables} (nobody : tables.member = []) : Distinct tables := by
  intro id
  rw [memberIds, get_members_by_channel_id, nobody]
  exact List.nodup_nil

theorem onePerPeople_of_none {tables : Tables} (none : tables.channel = Dict.empty) :
    OnePerPeople tables := by
  have absent : ∀ id, ¬ IsDm tables id := by
    rintro id ⟨channel, found, _⟩
    rw [none] at found
    cases found
  exact ⟨fun first _ dm => absurd dm (absent first), fun id _ dm => absurd dm (absent id)⟩

def dmRun : List Event :=
  [byAdmin "ann" "c" (.get_dm_channel_by_user_id "bob"),
    byAdmin "bob" "d" (.create_new_channel ⟨some "dm", none, none, some ["ann", "bob"]⟩)]

theorem dm_taken_up_again : Runs.Throughout OnePerPeople step noChannels dmRun := by
  obtain ⟨final, ran⟩ := Option.isSome_iff_exists.mp
    (by decide +kernel : (dmRun.foldlM step noChannels).isSome = true)
  refine (one_per_people_iff (distinct_of_none rfl) (onePerPeople_of_none rfl) ran).mpr ?_
  unfold dmRun
  rw [Runs.always_cons, Runs.always_cons]
  refine ⟨?_, ?_, Runs.always_nil _⟩
  · intro tables reached _
    obtain rfl := Option.some.inj reached
    refine @apart_of_opens _ (byAdmin "ann" "c" (.get_dm_channel_by_user_id "bob")) _ _ rfl ?_
    rintro _ _ _ other ⟨channel, found, _⟩
    cases found
  · intro tables reached _
    have found : (((dmRun.take 1).foldlM step noChannels).all (fun tables =>
        (get_dm_channel_by_user_ids tables ["bob", "ann", "bob"]).isSome)) = true := by
      decide +kernel
    have here : (dmRun.take 1).foldlM step noChannels = some tables := reached
    rw [here, Option.all_some] at found
    refine apart_of_opens rfl ?_
    intro user_ids asked absent
    obtain rfl : ["bob", "ann", "bob"] = user_ids := Option.some.inj asked
    rw [absent] at found
    cases found

def withGroup : Tables := { noChannels with
  access := { noChannels.access with group_member := [⟨"team", "bob"⟩] } }

def groupRun : List Event :=
  [byAdmin "ann" "c" (.get_dm_channel_by_user_id "bob"),
    byAdmin "ann" "d" (.create_new_channel ⟨some "dm", none, some ["team"], some []⟩)]

theorem group_makes_second_dm :
    ¬ ∀ (start final : Tables) (run : List Event), Distinct start → OnePerPeople start →
      run.foldlM step start = some final → Runs.Throughout OnePerPeople step start run := by
  intro always
  obtain ⟨final, ran⟩ := Option.isSome_iff_exists.mp
    (by decide +kernel : (groupRun.foldlM step withGroup).isSome = true)
  have one : OnePerPeople final := always withGroup final groupRun (distinct_of_none rfl)
    (onePerPeople_of_none rfl) ran groupRun [] (List.append_nil _).symm final ran
  have two : ((groupRun.foldlM step withGroup).all (fun tables =>
      (tables.channel.get? "c").any (fun channel => decide (channel.type = some "dm")) &&
        (tables.channel.get? "d").any (fun channel => decide (channel.type = some "dm")) &&
        (memberIds tables "c").isPerm (memberIds tables "d"))) = true := by
    decide +kernel
  rw [ran, Option.all_some, Bool.and_eq_true, Bool.and_eq_true] at two
  have dm : ∀ {id : String}, (final.channel.get? id).any (fun channel =>
      decide (channel.type = some "dm")) = true → IsDm final id := by
    intro id made
    obtain ⟨channel, found, type⟩ := (Option.any_eq_true _ _).mp made
    exact ⟨channel, found, of_decide_eq_true type⟩
  have same : SameUsers (memberIds final "c") (memberIds final "d") :=
    fun user_id => (List.isPerm_iff.mp two.2).mem_iff
  exact absurd (one.single "c" "d" (dm two.1.1) (dm two.1.2) same) (by decide)

end OpenWebui.Channels
