import OpenWebui.SharedChats.Requests

/-! What stays true of shares: a snapshot is the one that its chat is linked to, and a chat whose
shares are cleared stays cleared until it is shared again. -/

namespace OpenWebui.SharedChats

open AccessGrants (Payload set_access_grants mem_set_access_grants)

/-- A snapshot was issued, and its chat is linked to it. Share ids are not empty. -/
structure Sound (shares : Shares) : Prop where
  issued : ∀ share_id shared, shares.shared_chat.get? share_id = some shared →
    (share_id, shared.chat_id) ∈ shares.issued
  distinct : (shares.issued.map Prod.fst).Nodup
  named : ∀ id chat, shares.chat.get? id = some chat → chat.share_id ≠ some ""
  linked : ∀ share_id shared, shares.shared_chat.get? share_id = some shared →
    ∃ chat, shares.chat.get? shared.chat_id = some chat ∧ chat.user_id = shared.user_id ∧
      chat.share_id = some share_id

/-- Nothing of the shares of a chat is left. -/
structure Cleared (shares : Shares) (id : String) : Prop where
  snapshots : ∀ share_id shared, shares.shared_chat.get? share_id = some shared → shared.chat_id ≠ id
  unlinked : ∀ chat, shares.chat.get? id = some chat → chat.share_id = none
  ungranted : ∀ grant ∈ shares.access.access_grant,
    ¬ (grant.resource_type = "shared_chat" ∧ grant.resource_id = id)

/-- The chat is shared, or its grants are set. -/
def Reshares (id : String) : Request → Prop
  | .share_chat_by_id _ chat_id _ _ => chat_id = id
  | .update_shared_chat_access_by_id _ chat_id _ _ _ => chat_id = id
  | _ => False

section Writes

variable {shares : Shares}

/-- Every snapshot that is there now was there, of the same chat and user. -/
def Shrinks (before after : Dict String SharedChat) : Prop :=
  ∀ share_id shared, after.get? share_id = some shared → ∃ old, before.get? share_id = some old ∧
    old.chat_id = shared.chat_id ∧ old.user_id = shared.user_id

theorem Sound.shrink (sound : Sound shares) {left : Dict String SharedChat}
    (shrinks : Shrinks shares.shared_chat left) : Sound { shares with shared_chat := left } := by
  constructor
  · intro share_id shared found
    obtain ⟨old, before, chat, _⟩ := shrinks share_id shared found
    rw [← chat]
    exact sound.issued share_id old before
  · exact sound.distinct
  · exact sound.named
  · intro share_id shared found
    obtain ⟨old, before, chat, user⟩ := shrinks share_id shared found
    rw [← chat, ← user]
    exact sound.linked share_id old before

theorem Cleared.shrink {id : String} (cleared : Cleared shares id) {left : Dict String SharedChat}
    (shrinks : Shrinks shares.shared_chat left) :
    Cleared { shares with shared_chat := left } id := by
  refine ⟨?_, cleared.unlinked, cleared.ungranted⟩
  intro share_id shared found
  obtain ⟨old, before, chat, _⟩ := shrinks share_id shared found
  rw [← chat]
  exact cleared.snapshots share_id old before

theorem kept_of_get? {gone : SharedChat → Prop} [DecidablePred gone] {share_id : String}
    {shared : SharedChat}
    (found : (shares.shared_chat.filterMapValue (fun shared =>
      if gone shared then none else some shared)).get? share_id = some shared) :
    shares.shared_chat.get? share_id = some shared ∧ ¬ gone shared := by
  rw [Dict.get?_filterMapValue, Option.bind_eq_some_iff] at found
  obtain ⟨old, before, stays⟩ := found
  by_cases goes : gone old
  · simp [goes] at stays
  · rw [if_neg goes] at stays
    obtain rfl := Option.some.inj stays
    exact ⟨before, goes⟩

theorem shrinks_drop {gone : SharedChat → Prop} [DecidablePred gone] :
    Shrinks shares.shared_chat (shares.shared_chat.filterMapValue (fun shared =>
      if gone shared then none else some shared)) := by
  intro share_id shared found
  exact ⟨shared, (kept_of_get? found).1, rfl, rfl⟩

theorem shrinks_touch (share_id : String) (now : Int) :
    Shrinks shares.shared_chat (shares.shared_chat.modify share_id (fun shared =>
      { shared with updated_at := now })) := by
  intro key shared found
  rcases Dict.get?_modify_cases found with ⟨_, old, before, rfl⟩ | ⟨_, kept⟩
  · exact ⟨old, before, rfl, rfl⟩
  · exact ⟨shared, kept, rfl, rfl⟩

/-- No snapshot is of the chat. -/
def Unsnapped (shares : Shares) (id : String) : Prop :=
  ∀ share_id shared, shares.shared_chat.get? share_id = some shared → shared.chat_id ≠ id

theorem unsnapped_delete_by_chat_id (id : String) : Unsnapped (delete_by_chat_id shares id) id := by
  intro share_id shared found
  exact (kept_of_get? found).2

theorem Sound.chats (sound : Sound shares) {chats : Dict String Chat}
    (named : ∀ id chat, chats.get? id = some chat → chat.share_id ≠ some "")
    (same : ∀ share_id shared, shares.shared_chat.get? share_id = some shared →
      chats.get? shared.chat_id = shares.chat.get? shared.chat_id) :
    Sound { shares with chat := chats } := by
  refine ⟨sound.issued, sound.distinct, named, ?_⟩
  intro share_id shared found
  rw [same share_id shared found]
  exact sound.linked share_id shared found

theorem Sound.unlink (sound : Sound shares) {id : String} (unsnapped : Unsnapped shares id) :
    Sound (update_chat_share_id_by_id shares id none) := by
  apply sound.chats
  · intro query chat found
    rcases Dict.get?_modify_cases found with ⟨_, old, _, rfl⟩ | ⟨_, kept⟩
    · simp
    · exact sound.named query chat kept
  · intro share_id shared found
    rw [Dict.get?_modify, if_neg (Ne.symm (unsnapped share_id shared found))]

theorem Cleared.unlink {id : String} (cleared : Cleared shares id) (chat_id : String) :
    Cleared (update_chat_share_id_by_id shares chat_id none) id := by
  refine ⟨cleared.snapshots, ?_, cleared.ungranted⟩
  intro chat found
  rcases Dict.get?_modify_cases found with ⟨_, old, _, rfl⟩ | ⟨_, kept⟩
  · rfl
  · exact cleared.unlinked chat kept

theorem Cleared.chats {id : String} (cleared : Cleared shares id) {chats : Dict String Chat}
    (same : ∀ chat, chats.get? id = some chat → shares.chat.get? id = some chat) :
    Cleared { shares with chat := chats } id := by
  refine ⟨cleared.snapshots, ?_, cleared.ungranted⟩
  intro chat found
  exact cleared.unlinked chat (same chat found)

theorem Sound.clearGrants (sound : Sound shares) (id : String) : Sound (clearGrants shares id) :=
  ⟨sound.issued, sound.distinct, sound.named, sound.linked⟩

theorem mem_clearGrants {id : String} {grant : AccessGrants.AccessGrant} :
    grant ∈ (clearGrants shares id).access.access_grant ↔
      grant ∈ shares.access.access_grant ∧
        ¬ (grant.resource_type = "shared_chat" ∧ grant.resource_id = id) := by
  rw [SharedChats.clearGrants, mem_set_access_grants]
  constructor
  · rintro (old | ⟨place, found, _⟩)
    · exact old
    · exact absurd found (Nat.not_lt_zero _)
  · exact Or.inl

theorem Cleared.clearGrants {id : String} (cleared : Cleared shares id) (chat_id : String) :
    Cleared (clearGrants shares chat_id) id := by
  refine ⟨cleared.snapshots, cleared.unlinked, ?_⟩
  intro grant member
  exact cleared.ungranted grant (mem_clearGrants.mp member).1

end Writes

section Requests

variable {shares : Shares}

theorem Sound.delete_chat (sound : Sound shares) (id : String) : Sound (delete_chat shares id) := by
  have dropped : Sound (delete_by_chat_id shares id) := sound.shrink shrinks_drop
  refine dropped.chats ?_ ?_
  · intro query chat found
    rw [Dict.get?_erase] at found
    split at found
    · cases found
    · exact sound.named query chat found
  · intro share_id shared found
    rw [Dict.get?_erase, if_neg (Ne.symm (unsnapped_delete_by_chat_id id share_id shared found))]
    rfl

theorem Cleared.delete_chat {id : String} (cleared : Cleared shares id) (chat_id : String) :
    Cleared (delete_chat shares chat_id) id := by
  have dropped : Cleared (delete_by_chat_id shares chat_id) id := cleared.shrink shrinks_drop
  refine dropped.chats ?_
  intro chat found
  rw [Dict.get?_erase] at found
  split at found
  · cases found
  · exact found

theorem Sound.delete_chat_by_id_and_user_id (sound : Sound shares) (id user_id : String) :
    Sound (delete_chat_by_id_and_user_id shares id user_id) := by
  unfold SharedChats.delete_chat_by_id_and_user_id
  split
  · exact sound.delete_chat id
  · exact sound.shrink shrinks_drop

theorem Cleared.delete_chat_by_id_and_user_id {id : String} (cleared : Cleared shares id)
    (chat_id user_id : String) : Cleared (delete_chat_by_id_and_user_id shares chat_id user_id) id := by
  unfold SharedChats.delete_chat_by_id_and_user_id
  split
  · exact cleared.delete_chat chat_id
  · exact cleared.shrink shrinks_drop

theorem findOwn_ok {caller : Caller} {id : String} {chat : Chat}
    (found : findOwn shares caller id = .ok chat) :
    shares.chat.get? id = some chat ∧ chat.user_id = caller.id := by
  unfold findOwn at found
  split at found
  · rename_i own seen
    obtain rfl := Except.ok.inj found
    obtain ⟨stored, owner⟩ := Option.filter_eq_some_iff.mp seen
    exact ⟨stored, of_decide_eq_true owner⟩
  · cases found

theorem share_chat_by_id_cases {caller : Caller} {id uuid : String} {now : Int} {after : Shares}
    (done : share_chat_by_id shares caller id uuid now = .ok after) :
    ∃ chat, shares.chat.get? id = some chat ∧ chat.user_id = caller.id ∧
      ((∃ share_id, update shares share_id now = some after) ∨
        (after = update_chat_share_id_by_id (create shares id caller.id uuid now) id (some uuid) ∧
          ∀ share_id, share_id ≠ "" → chat.share_id = some share_id →
            update shares share_id now = none)) := by
  obtain ⟨_, _, done⟩ := bind_eq_ok.mp done
  obtain ⟨chat, found, done⟩ := bind_eq_ok.mp done
  obtain ⟨stored, owner⟩ := findOwn_ok found
  refine ⟨chat, stored, owner, ?_⟩
  split at done
  · rename_i updated again
    obtain rfl := Except.ok.inj done
    obtain ⟨share_id, _, made⟩ := Option.bind_eq_some_iff.mp again
    exact Or.inl ⟨share_id, made⟩
  · rename_i missing
    refine Or.inr ⟨(Except.ok.inj done).symm, ?_⟩
    intro share_id named linked
    simpa [linked, named] using missing

theorem update_eq_some {share_id : String} {now : Int} {after : Shares}
    (done : update shares share_id now = some after) :
    after = { shares with
      shared_chat := shares.shared_chat.modify share_id (fun shared =>
        { shared with updated_at := now }) } := by
  unfold update at done
  split at done
  · cases done
  · split at done
    · exact (Option.some.inj done).symm
    · cases done

theorem Sound.share_chat_by_id (sound : Sound shares) {caller : Caller} {id uuid : String} {now : Int}
    (fresh : uuid ∉ shares.issued.map Prod.fst) (named : uuid ≠ "") {after : Shares}
    (done : share_chat_by_id shares caller id uuid now = .ok after) : Sound after := by
  obtain ⟨chat, stored, owner, ⟨share_id, again⟩ | ⟨rfl, first⟩⟩ := share_chat_by_id_cases done
  · rw [update_eq_some again]
    exact sound.shrink (shrinks_touch share_id now)
  · -- A snapshot of the chat would be the one it is linked to, and would have been made again.
    have unsnapped : Unsnapped shares id := by
      intro share_id shared found same
      obtain ⟨linked, at_chat, _, link⟩ := sound.linked share_id shared found
      rw [same, stored] at at_chat
      obtain rfl := Option.some.inj at_chat
      have named : share_id ≠ "" := by
        rintro rfl
        exact sound.named id chat stored link
      have none := first share_id named link
      simp [update, found, same, stored] at none
    have cases_of_get : ∀ share_id shared,
        (shares.shared_chat.set uuid ⟨id, caller.id, now⟩).get? share_id = some shared →
          (share_id = uuid ∧ shared = ⟨id, caller.id, now⟩) ∨
            shares.shared_chat.get? share_id = some shared := by
      intro share_id shared found
      rw [Dict.get?_set] at found
      split at found
      · rename_i same
        exact Or.inl ⟨same.symm, (Option.some.inj found).symm⟩
      · exact Or.inr found
    constructor
    · intro share_id shared found
      rcases cases_of_get share_id shared found with ⟨rfl, rfl⟩ | old
      · exact List.mem_cons_self
      · exact List.mem_cons_of_mem _ (sound.issued share_id shared old)
    · exact List.nodup_cons.mpr ⟨fresh, sound.distinct⟩
    · intro query other found
      rcases Dict.get?_modify_cases found with ⟨_, old, _, rfl⟩ | ⟨_, kept⟩
      · simpa using named
      · exact sound.named query other kept
    · intro share_id shared found
      rcases cases_of_get share_id shared found with ⟨rfl, rfl⟩ | old
      · refine ⟨{ chat with share_id := some share_id }, ?_, owner, rfl⟩
        rw [update_chat_share_id_by_id, Dict.get?_modify, if_pos rfl]
        exact congrArg (Option.map _) stored
      · rw [update_chat_share_id_by_id, Dict.get?_modify,
          if_neg (Ne.symm (unsnapped share_id shared old))]
        exact sound.linked share_id shared old

theorem Cleared.share_chat_by_id {id : String} (cleared : Cleared shares id) {caller : Caller}
    {chat_id uuid : String} {now : Int} (other : chat_id ≠ id) {after : Shares}
    (done : share_chat_by_id shares caller chat_id uuid now = .ok after) : Cleared after id := by
  obtain ⟨chat, _, _, ⟨share_id, again⟩ | ⟨rfl, _⟩⟩ := share_chat_by_id_cases done
  · rw [update_eq_some again]
    exact cleared.shrink (shrinks_touch share_id now)
  · constructor
    · intro share_id shared found
      rw [update_chat_share_id_by_id, create, Dict.get?_set] at found
      split at found
      · obtain rfl := Option.some.inj found
        exact other
      · exact cleared.snapshots share_id shared found
    · intro chat found
      rw [update_chat_share_id_by_id, Dict.get?_modify, if_neg other] at found
      exact cleared.unlinked chat found
    · exact cleared.ungranted

theorem update_shared_chat_access_by_id_cases {caller : Caller} {id : String}
    {access_grants : List Payload} {grant_uuid : Nat → String} {now : Int} {after : Shares}
    (done : update_shared_chat_access_by_id shares caller id access_grants grant_uuid now = .ok after) :
    ∃ allowed, after = { shares with
      access := set_access_grants grant_uuid now shares.access "shared_chat" id allowed } := by
  unfold update_shared_chat_access_by_id at done
  dsimp only at done
  generalize (if caller.role = "admin" then shares.chat.get? id
    else get_chat_by_id_and_user_id shares id caller.id) = found at done
  cases found with
  | none => cases done
  | some chat =>
    obtain ⟨allowed, _, done⟩ := bind_eq_ok.mp done
    exact ⟨allowed, (Except.ok.inj done).symm⟩

theorem Cleared.update_shared_chat_access_by_id {id : String} (cleared : Cleared shares id)
    {caller : Caller} {chat_id : String} {access_grants : List Payload} {grant_uuid : Nat → String}
    {now : Int} (other : chat_id ≠ id) {after : Shares}
    (done : update_shared_chat_access_by_id shares caller chat_id access_grants grant_uuid now =
      .ok after) : Cleared after id := by
  obtain ⟨allowed, rfl⟩ := update_shared_chat_access_by_id_cases done
  refine ⟨cleared.snapshots, cleared.unlinked, ?_⟩
  intro grant member
  rcases mem_set_access_grants.mp member with ⟨old, _⟩ | ⟨place, found, rfl⟩
  · exact cleared.ungranted grant old
  · rintro ⟨_, same⟩
    exact other same

theorem delete_shared_chat_by_id_cases {caller : Caller} {id : String} {after : Shares}
    (done : delete_shared_chat_by_id shares caller id = .ok after) :
    ∃ chat, shares.chat.get? id = some chat ∧ chat.user_id = caller.id ∧
      after = SharedChats.clearGrants
        (if (chat.share_id.filter (fun share_id => decide (share_id ≠ ""))).isSome then
          update_chat_share_id_by_id (delete_by_chat_id shares id) id none
        else delete_by_chat_id shares id) id := by
  obtain ⟨chat, found, done⟩ := bind_eq_ok.mp done
  obtain ⟨stored, owner⟩ := findOwn_ok found
  exact ⟨chat, stored, owner, (Except.ok.inj done).symm⟩

theorem Sound.delete_shared_chat_by_id (sound : Sound shares) {caller : Caller} {id : String}
    {after : Shares} (done : delete_shared_chat_by_id shares caller id = .ok after) :
    Sound after := by
  obtain ⟨chat, _, _, rfl⟩ := delete_shared_chat_by_id_cases done
  have deleted : Sound (delete_by_chat_id shares id) := sound.shrink shrinks_drop
  apply Sound.clearGrants
  split
  · exact deleted.unlink (unsnapped_delete_by_chat_id id)
  · exact deleted

theorem Cleared.delete_shared_chat_by_id {id : String} (cleared : Cleared shares id)
    {caller : Caller} {chat_id : String} {after : Shares}
    (done : delete_shared_chat_by_id shares caller chat_id = .ok after) : Cleared after id := by
  obtain ⟨chat, _, _, rfl⟩ := delete_shared_chat_by_id_cases done
  have deleted : Cleared (delete_by_chat_id shares chat_id) id := cleared.shrink shrinks_drop
  apply Cleared.clearGrants
  split
  · exact deleted.unlink chat_id
  · exact deleted

theorem cleared_delete_shared_chat_by_id (sound : Sound shares) {caller : Caller} {id : String}
    {after : Shares} (done : delete_shared_chat_by_id shares caller id = .ok after) :
    Cleared after id := by
  obtain ⟨chat, stored, _, rfl⟩ := delete_shared_chat_by_id_cases done
  constructor
  · intro share_id shared found
    have left : (delete_by_chat_id shares id).shared_chat.get? share_id = some shared := by
      split at found
      · exact found
      · exact found
    exact unsnapped_delete_by_chat_id id share_id shared left
  · intro left found
    have never := sound.named id chat stored
    cases link : chat.share_id with
    | none =>
      rw [link] at found
      obtain rfl := Option.some.inj (stored.symm.trans found)
      exact link
    | some share_id =>
      have named : share_id ≠ "" := by
        rintro rfl
        exact never link
      simp only [link, Option.filter, named, ne_eq, not_false_eq_true, decide_true, if_true,
        Option.isSome_some, SharedChats.clearGrants, update_chat_share_id_by_id,
        Dict.get?_modify] at found
      obtain ⟨old, _, rfl⟩ := Option.map_eq_some_iff.mp found
      rfl
  · intro grant member
    exact (mem_clearGrants.mp member).2

/-! Unsharing every chat. -/

theorem mem_ownShares {user_id share_id : String} :
    share_id ∈ ownShares shares user_id ↔
      ∃ shared, shares.shared_chat.get? share_id = some shared ∧ shared.user_id = user_id := by
  simp only [ownShares, List.mem_map, List.mem_filter, decide_eq_true_eq, Prod.exists,
    Dict.mem_entries_iff]
  constructor
  · rintro ⟨key, shared, ⟨found, owner⟩, rfl⟩
    exact ⟨shared, found, owner⟩
  · rintro ⟨shared, found, owner⟩
    exact ⟨share_id, shared, ⟨found, owner⟩, rfl⟩

theorem mem_listedChats {rows : List String} {id : String} :
    id ∈ listedChats shares rows ↔ ∃ share_id ∈ rows.take 50, ∃ shared,
      shares.shared_chat.get? share_id = some shared ∧ shared.chat_id = id := by
  simp only [listedChats, List.mem_filterMap, Option.map_eq_some_iff]

def clearAll (shares : Shares) (ids : List String) : Shares :=
  ids.foldl (fun shares id => clearGrants (update_chat_share_id_by_id shares id none) id) shares

theorem clearAll_cons (id : String) (ids : List String) : clearAll shares (id :: ids) =
    clearAll (clearGrants (update_chat_share_id_by_id shares id none) id) ids := rfl

theorem Sound.clearAll (sound : Sound shares) {ids : List String}
    (unsnapped : ∀ id ∈ ids, Unsnapped shares id) : Sound (clearAll shares ids) := by
  induction ids generalizing shares with
  | nil => exact sound
  | cons id rest ih =>
    apply ih
    · exact (sound.unlink (unsnapped id List.mem_cons_self)).clearGrants id
    · intro other member
      exact unsnapped other (List.mem_cons_of_mem _ member)

theorem Cleared.clearAll {id : String} (cleared : Cleared shares id) (ids : List String) :
    Cleared (clearAll shares ids) id := by
  induction ids generalizing shares with
  | nil => exact cleared
  | cons other rest ih => exact ih ((cleared.unlink other).clearGrants other)

theorem cleared_clearAll {id : String} {ids : List String} (member : id ∈ ids)
    (unsnapped : Unsnapped shares id) : Cleared (clearAll shares ids) id := by
  induction ids generalizing shares with
  | nil => cases member
  | cons other rest ih =>
    rw [clearAll_cons]
    rcases List.mem_cons.mp member with rfl | later
    · have cleared : Cleared (clearGrants (update_chat_share_id_by_id shares id none) id) id := by
        refine ⟨unsnapped, ?_, ?_⟩
        · intro chat found
          rw [clearGrants, update_chat_share_id_by_id, Dict.get?_modify, if_pos rfl] at found
          obtain ⟨old, _, rfl⟩ := Option.map_eq_some_iff.mp found
          rfl
        · intro grant kept
          exact (mem_clearGrants.mp kept).2
      exact cleared.clearAll rest
    · exact ih later unsnapped

theorem get?_chat_clearAll {id : String} {ids : List String} (other : id ∉ ids) :
    (clearAll shares ids).chat.get? id = shares.chat.get? id := by
  induction ids generalizing shares with
  | nil => rfl
  | cons first rest ih =>
    rw [List.mem_cons, not_or] at other
    obtain ⟨different, later⟩ := other
    rw [clearAll_cons, ih later, clearGrants, update_chat_share_id_by_id, Dict.get?_modify,
      if_neg (Ne.symm different)]

theorem unsnapped_of_listed (sound : Sound shares) {caller : Caller} {rows : List String}
    (own : rows.Perm (ownShares shares caller.id)) {id : String}
    (listed : id ∈ listedChats shares rows) : Unsnapped (delete_all_by_user_id shares caller.id) id := by
  obtain ⟨share_id, taken, shared, found, rfl⟩ := mem_listedChats.mp listed
  obtain ⟨mine, again, owner⟩ := mem_ownShares.mp (own.mem_iff.mp (List.mem_of_mem_take taken))
  obtain rfl := Option.some.inj (found.symm.trans again)
  intro other_id other remains same
  obtain ⟨there, foreign⟩ := kept_of_get? remains
  obtain ⟨chat, stored, theirs, _⟩ := sound.linked other_id other there
  obtain ⟨_, stored', ours, _⟩ := sound.linked share_id shared found
  rw [same, stored'] at stored
  obtain rfl := Option.some.inj stored
  exact foreign (theirs.symm.trans (ours.trans owner))

theorem unshare_all_chats_eq (caller : Caller) (rows : List String) :
    unshare_all_chats shares caller rows =
      clearAll (delete_all_by_user_id shares caller.id) (listedChats shares rows) := rfl

theorem Sound.unshare_all_chats (sound : Sound shares) {caller : Caller} {rows : List String}
    (own : rows.Perm (ownShares shares caller.id)) : Sound (unshare_all_chats shares caller rows) := by
  rw [unshare_all_chats_eq]
  have deleted : Sound (delete_all_by_user_id shares caller.id) := sound.shrink shrinks_drop
  apply deleted.clearAll
  intro id listed
  exact unsnapped_of_listed sound own listed

theorem Cleared.unshare_all_chats {id : String} (cleared : Cleared shares id) (caller : Caller)
    (rows : List String) : Cleared (unshare_all_chats shares caller rows) id := by
  rw [unshare_all_chats_eq]
  have deleted : Cleared (delete_all_by_user_id shares caller.id) id := cleared.shrink shrinks_drop
  exact deleted.clearAll _

/-! Deleting chats. -/

theorem Sound.foldl_delete (sound : Sound shares) (children : List String) (user_id : String) :
    Sound (children.foldl (fun shares child =>
      SharedChats.delete_chat_by_id_and_user_id shares child user_id) shares) := by
  induction children generalizing shares with
  | nil => exact sound
  | cons child rest ih => exact ih (sound.delete_chat_by_id_and_user_id child user_id)

theorem Cleared.foldl_delete {id : String} (cleared : Cleared shares id) (children : List String)
    (user_id : String) : Cleared (children.foldl (fun shares child =>
      SharedChats.delete_chat_by_id_and_user_id shares child user_id) shares) id := by
  induction children generalizing shares with
  | nil => exact cleared
  | cons child rest ih => exact ih (cleared.delete_chat_by_id_and_user_id child user_id)

theorem delete_chat_by_id_cases {caller : Caller} {id : String} {children : List String}
    {after : Shares} (done : delete_chat_by_id shares caller id children = .ok after) :
    ∃ user_id, after = delete_chat (children.foldl (fun shares child =>
          SharedChats.delete_chat_by_id_and_user_id shares child user_id) shares) id ∨
      after = delete_chat_by_id_and_user_id (children.foldl (fun shares child =>
        SharedChats.delete_chat_by_id_and_user_id shares child user_id) shares) id caller.id := by
  obtain ⟨found, _, done⟩ := bind_eq_ok.mp done
  cases found with
  | none => cases done
  | some chat =>
    refine ⟨chat.user_id, ?_⟩
    have done := Except.ok.inj done
    split at done
    · exact Or.inl done.symm
    · exact Or.inr done.symm

theorem Sound.delete_chat_by_id (sound : Sound shares) {caller : Caller} {id : String}
    {children : List String} {after : Shares}
    (done : delete_chat_by_id shares caller id children = .ok after) : Sound after := by
  obtain ⟨user_id, rfl | rfl⟩ := delete_chat_by_id_cases done
  · exact (sound.foldl_delete children user_id).delete_chat id
  · exact (sound.foldl_delete children user_id).delete_chat_by_id_and_user_id id caller.id

theorem Cleared.delete_chat_by_id {id : String} (cleared : Cleared shares id) {caller : Caller}
    {chat_id : String} {children : List String} {after : Shares}
    (done : delete_chat_by_id shares caller chat_id children = .ok after) : Cleared after id := by
  obtain ⟨user_id, rfl | rfl⟩ := delete_chat_by_id_cases done
  · exact (cleared.foldl_delete children user_id).delete_chat chat_id
  · exact (cleared.foldl_delete children user_id).delete_chat_by_id_and_user_id chat_id caller.id

theorem delete_all_user_chats_cases {caller : Caller} {after : Shares}
    (done : delete_all_user_chats shares caller = .ok after) :
    after = { delete_all_by_user_id shares caller.id with
      chat := shares.chat.filterMapValue (fun chat =>
        if chat.user_id = caller.id then none else some chat) } := by
  obtain ⟨_, _, done⟩ := bind_eq_ok.mp done
  exact (Except.ok.inj done).symm

theorem stays_of_get? {user_id id : String} {chat : Chat}
    (found : (shares.chat.filterMapValue (fun chat =>
      if chat.user_id = user_id then none else some chat)).get? id = some chat) :
    shares.chat.get? id = some chat := by
  rw [Dict.get?_filterMapValue, Option.bind_eq_some_iff] at found
  obtain ⟨old, before, stays⟩ := found
  split at stays
  · cases stays
  · obtain rfl := Option.some.inj stays
    exact before

theorem Sound.delete_all_user_chats (sound : Sound shares) {caller : Caller} {after : Shares}
    (done : delete_all_user_chats shares caller = .ok after) : Sound after := by
  rw [delete_all_user_chats_cases done]
  have deleted : Sound (delete_all_by_user_id shares caller.id) := sound.shrink shrinks_drop
  refine deleted.chats ?_ ?_
  · intro id chat found
    exact sound.named id chat (stays_of_get? found)
  · -- The chat of a snapshot that stays is of the same user, so it stays too.
    intro share_id shared remains
    obtain ⟨there, foreign⟩ := kept_of_get? remains
    obtain ⟨chat, stored, owner, _⟩ := sound.linked share_id shared there
    have stays : chat.user_id ≠ caller.id := by
      intro same
      exact foreign (owner.symm.trans same)
    have before : (delete_all_by_user_id shares caller.id).chat.get? shared.chat_id = some chat :=
      stored
    rw [Dict.get?_filterMapValue, before, stored, Option.bind_some, if_neg stays]

theorem Cleared.delete_all_user_chats {id : String} (cleared : Cleared shares id) {caller : Caller}
    {after : Shares} (done : delete_all_user_chats shares caller = .ok after) : Cleared after id := by
  rw [delete_all_user_chats_cases done]
  have deleted : Cleared (delete_all_by_user_id shares caller.id) id := cleared.shrink shrinks_drop
  refine deleted.chats ?_
  intro chat found
  exact stays_of_get? found

theorem Sound.handle (sound : Sound shares) {request : Request} (admitted : admits shares request = true)
    {after : Shares} (done : handle shares request = .ok after) : Sound after := by
  cases request with
  | insert_new_chat id user_id folder_id internal =>
    obtain rfl := Except.ok.inj done
    have fresh : id ∉ shares.chat.keys := of_decide_eq_true admitted
    refine sound.chats ?_ ?_
    · intro query chat found
      rw [Dict.get?_set] at found
      split at found
      · obtain rfl := Option.some.inj found
        simp
      · exact sound.named query chat found
    · intro share_id shared found
      obtain ⟨chat, stored, _⟩ := sound.linked share_id shared found
      have other : id ≠ shared.chat_id := by
        rintro rfl
        exact fresh (Dict.mem_keys_of_get? stored)
      rw [Dict.get?_set, if_neg other]
  | share_chat_by_id caller id uuid now =>
    obtain ⟨named, fresh⟩ := Bool.and_eq_true_iff.mp admitted
    exact sound.share_chat_by_id (of_decide_eq_true fresh) (of_decide_eq_true named) done
  | update_shared_chat_access_by_id caller id access_grants grant_uuid now =>
    obtain ⟨allowed, rfl⟩ := update_shared_chat_access_by_id_cases done
    exact ⟨sound.issued, sound.distinct, sound.named, sound.linked⟩
  | delete_shared_chat_by_id caller id => exact sound.delete_shared_chat_by_id done
  | unshare_all_chats caller rows =>
    obtain rfl := Except.ok.inj done
    exact sound.unshare_all_chats (List.isPerm_iff.mp (Bool.and_eq_true_iff.mp admitted).1)
  | delete_chat_by_id caller id children => exact sound.delete_chat_by_id done
  | delete_all_user_chats caller => exact sound.delete_all_user_chats done

theorem Cleared.handle {id : String} (cleared : Cleared shares id) {request : Request}
    (admitted : admits shares request = true) (quiet : ¬ Reshares id request) {after : Shares}
    (done : handle shares request = .ok after) : Cleared after id := by
  cases request with
  | insert_new_chat chat_id user_id folder_id internal =>
    obtain rfl := Except.ok.inj done
    refine ⟨cleared.snapshots, ?_, cleared.ungranted⟩
    intro chat found
    rw [Dict.get?_set] at found
    split at found
    · obtain rfl := Option.some.inj found
      rfl
    · exact cleared.unlinked chat found
  | share_chat_by_id caller chat_id uuid now => exact cleared.share_chat_by_id quiet done
  | update_shared_chat_access_by_id caller chat_id access_grants grant_uuid now =>
    exact cleared.update_shared_chat_access_by_id quiet done
  | delete_shared_chat_by_id caller chat_id => exact cleared.delete_shared_chat_by_id done
  | unshare_all_chats caller rows =>
    obtain rfl := Except.ok.inj done
    exact cleared.unshare_all_chats caller rows
  | delete_chat_by_id caller chat_id children => exact cleared.delete_chat_by_id done
  | delete_all_user_chats caller => exact cleared.delete_all_user_chats done

theorem step_cases {request : Request} {after : Shares} (stepped : step shares request = some after) :
    admits shares request = true ∧ (handle shares request = .ok after ∨ after = shares) := by
  unfold step at stepped
  split at stepped
  · rename_i admitted
    split at stepped
    · rename_i result done
      obtain rfl := Option.some.inj stepped
      exact ⟨admitted, Or.inl done⟩
    · exact ⟨admitted, Or.inr (Option.some.inj stepped).symm⟩
  · cases stepped

theorem Sound.step (sound : Sound shares) {request : Request} {after : Shares}
    (stepped : step shares request = some after) : Sound after := by
  obtain ⟨admitted, done | rfl⟩ := step_cases stepped
  · exact sound.handle admitted done
  · exact sound

theorem Cleared.step {id : String} (cleared : Cleared shares id) {request : Request}
    (quiet : ¬ Reshares id request) {after : Shares} (stepped : step shares request = some after) :
    Cleared after id := by
  obtain ⟨admitted, done | rfl⟩ := step_cases stepped
  · exact cleared.handle admitted quiet done
  · exact cleared

end Requests

end OpenWebui.SharedChats
