import OpenWebui.SharedChats.Cleared
import OpenWebui.Base.Runs
import Mathlib.Data.List.Nodup

/-! Unsharing a chat takes it from everyone else until it is shared again, exactly as long as nobody
unshares more chats at once than one page of snapshots has. -/

namespace OpenWebui.SharedChats

open AccessControl (get_shared_chat_ids_by_file_id has_access_to_file FileDatabase)
open AccessGrants (Payload has_access has_access_iff)

/-- No admin, and not the owner of the chat. -/
def Outsider (shares : Shares) (id : String) (user : Caller) : Prop :=
  user.role ≠ "admin" ∧ ∀ chat, shares.chat.get? id = some chat → chat.user_id ≠ user.id

/-- The chat is in no folder that the user has access to. -/
def OutsideFolders (shares : Shares) (folder_access : String → String → Bool) (id : String)
    (user : Caller) : Prop :=
  ∀ chat, shares.chat.get? id = some chat → ∀ folder_id, chat.folder_id = some folder_id →
    folder_access user.id folder_id = false

/-- The answer is a refusal. -/
def Refused {α : Type} (answer : Except HTTPException α) : Prop :=
  ∃ exception, answer = .error exception

/-- Nobody else is shown the chat any more, and nothing of its shares is left. A visitor who is not
signed in is none. -/
structure Revoked (shares : Shares) (id : String) : Prop where
  snapshot : ∀ (ENABLE_ADMIN_CHAT_ACCESS : Bool) (visitor : Option Caller),
    (∀ user ∈ visitor, Outsider shares id user) → ∀ share_id,
      get_shared_chat_by_id shares ENABLE_ADMIN_CHAT_ACCESS visitor share_id ≠ .ok id ∧
        ((share_id, id) ∈ shares.issued →
          Refused (get_shared_chat_by_id shares ENABLE_ADMIN_CHAT_ACCESS visitor share_id))
  chat : ∀ (ENABLE_ADMIN_CHAT_ACCESS : Bool) (folder_access : String → String → Bool) (user : Caller),
    Outsider shares id user → OutsideFolders shares folder_access id user →
      Refused (get_chat_by_id shares ENABLE_ADMIN_CHAT_ACCESS folder_access user id)
  clone : ∀ (ENABLE_ADMIN_CHAT_ACCESS : Bool) (user : Caller), Outsider shares id user → ∀ share_id,
    clone_shared_chat_by_id shares ENABLE_ADMIN_CHAT_ACCESS user share_id ≠ .ok id ∧
      ((share_id, id) ∈ shares.issued →
        Refused (clone_shared_chat_by_id shares ENABLE_ADMIN_CHAT_ACCESS user share_id))
  unlinked : ∀ chat, shares.chat.get? id = some chat → chat.share_id = none
  ungranted : ∀ grant ∈ shares.access.access_grant,
    ¬ (grant.resource_type = "shared_chat" ∧ grant.resource_id = id)
  files : ∀ (files : FileDatabase) (file_id access_type user_id : String)
    (user_group_ids : Option (List String)),
      has_access_to_file (fileTables shares files) file_id access_type user_id user_group_ids =
        has_access_to_file (fileTables { shares with chat := shares.chat.erase id } files) file_id
          access_type user_id user_group_ids

/-- The request unshares the chat, alone or with all others of its user. -/
def Unshares (shares : Shares) (id : String) : Request → Prop
  | .delete_shared_chat_by_id caller chat_id => chat_id = id ∧
      ∃ chat, shares.chat.get? id = some chat ∧ chat.user_id = caller.id
  | .unshare_all_chats caller _ => ∃ share_id shared,
      shares.shared_chat.get? share_id = some shared ∧ shared.user_id = caller.id ∧
        shared.chat_id = id
  | _ => False

/-- The chat is not shared again, as no request for it is accepted. -/
def Quiet (id : String) (shares : Shares) (request : Request) : Prop :=
  Reshares id request → Refused (handle shares request)

/-- After every request that unshares a chat, the chat is revoked until it is shared again. -/
def UnsharingRevokes (start : Shares) (run : List Request) : Prop :=
  ∀ id earlier request between later, run = earlier ++ request :: (between ++ later) →
    ∀ old new, earlier.foldlM step start = some old → step old request = some new →
      Unshares old id request →
        Runs.Always (fun before event =>
          ∀ state, before.foldlM step new = some state → Quiet id state event) between →
        ∀ state, between.foldlM step new = some state → Revoked state id

/-- Whoever unshares all their chats has at most one page of snapshots. -/
def OnOnePage (shares : Shares) : Request → Prop
  | .unshare_all_chats caller _ => (ownShares shares caller.id).length ≤ 50
  | _ => True

def start (access : AccessGrants.Database) : Shares := ⟨Dict.empty, Dict.empty, access, []⟩

section Revocation

variable {shares : Shares} {id : String}

theorem Cleared.not_has_access (cleared : Cleared shares id) (user_id : String) :
    has_access shares.access user_id "shared_chat" id "read" none = false := by
  rw [← Bool.not_eq_true, has_access_iff]
  rintro ⟨grant, member, ⟨type, resource, _⟩, _⟩
  exact cleared.ungranted grant member ⟨type, resource⟩

theorem Cleared.get?_issued (cleared : Cleared shares id) (sound : Sound shares) {share_id : String}
    (issued : (share_id, id) ∈ shares.issued) : shares.shared_chat.get? share_id = none := by
  cases found : shares.shared_chat.get? share_id with
  | none => rfl
  | some shared =>
    have first := Assoc.lookup_of_mem sound.distinct issued
    have again := Assoc.lookup_of_mem sound.distinct (sound.issued share_id shared found)
    have same : id = shared.chat_id := Option.some.inj (first.symm.trans again)
    exact absurd same.symm (cleared.snapshots share_id shared found)

theorem Cleared.refused_snapshot (cleared : Cleared shares id) (sound : Sound shares)
    (ENABLE_ADMIN_CHAT_ACCESS : Bool) {visitor : Option Caller}
    (outsider : ∀ user ∈ visitor, Outsider shares id user) (share_id : String) :
    get_shared_chat_by_id shares ENABLE_ADMIN_CHAT_ACCESS visitor share_id ≠ .ok id ∧
      ((share_id, id) ∈ shares.issued →
        Refused (get_shared_chat_by_id shares ENABLE_ADMIN_CHAT_ACCESS visitor share_id)) := by
  have no_admin : visitor.any (fun user => decide (user.role = "admin")) = false := by
    cases visitor with
    | none => rfl
    | some user => exact decide_eq_false (outsider user rfl).1
  constructor
  · unfold get_shared_chat_by_id
    cases found : shares.shared_chat.get? share_id with
    | none =>
      simp only [no_admin, Bool.false_and, Bool.false_eq_true, if_false]
      rintro ⟨⟩
    | some shared =>
      dsimp only
      split
      · intro shown
        exact cleared.snapshots share_id shared found (Except.ok.inj shown)
      · rintro ⟨⟩
  · intro issued
    refine ⟨⟨401, ERROR_MESSAGES.NOT_FOUND⟩, ?_⟩
    simp only [get_shared_chat_by_id, cleared.get?_issued sound issued, no_admin, Bool.false_and,
      Bool.false_eq_true, if_false, refuse]

theorem Cleared.refused_chat (cleared : Cleared shares id) (ENABLE_ADMIN_CHAT_ACCESS : Bool)
    {folder_access : String → String → Bool} {user : Caller} (outsider : Outsider shares id user)
    (outside : OutsideFolders shares folder_access id user) :
    Refused (get_chat_by_id shares ENABLE_ADMIN_CHAT_ACCESS folder_access user id) := by
  have not_own : get_chat_by_id_and_user_id shares id user.id = none := by
    rw [get_chat_by_id_and_user_id, Option.filter_eq_none_iff]
    intro chat found
    simpa using outsider.2 chat found
  have not_inside : (shares.chat.get? id).filter (fun chat => chat.folder_id.any (fun folder_id =>
      decide (folder_id ≠ "") && folder_access user.id folder_id)) = none := by
    rw [Option.filter_eq_none_iff]
    intro chat found
    cases folder : chat.folder_id with
    | none => simp
    | some folder_id => simp [outside chat found folder_id folder]
  refine ⟨⟨401, ERROR_MESSAGES.NOT_FOUND⟩, ?_⟩
  simp only [get_chat_by_id, not_own, if_neg outsider.1, cleared.not_has_access, Bool.false_eq_true,
    if_false, not_inside, Option.or_none, refuse]

theorem Cleared.refused_clone (cleared : Cleared shares id) (sound : Sound shares)
    (ENABLE_ADMIN_CHAT_ACCESS : Bool) {user : Caller} (outsider : Outsider shares id user)
    (share_id : String) :
    clone_shared_chat_by_id shares ENABLE_ADMIN_CHAT_ACCESS user share_id ≠ .ok id ∧
      ((share_id, id) ∈ shares.issued →
        Refused (clone_shared_chat_by_id shares ENABLE_ADMIN_CHAT_ACCESS user share_id)) := by
  have no_admin := outsider.1
  constructor
  · intro cloned
    obtain ⟨_, _, cloned⟩ := bind_eq_ok.mp cloned
    cases found : shares.shared_chat.get? share_id with
    | none => simp [found, no_admin, refuse] at cloned
    | some shared =>
      rw [found] at cloned
      dsimp only at cloned
      split at cloned
      · exact cleared.snapshots share_id shared found (Except.ok.inj cloned)
      · cases cloned
  · intro issued
    unfold clone_shared_chat_by_id
    cases requirePermission user "chat.import" 403 with
    | error exception => exact ⟨exception, rfl⟩
    | ok _ =>
      refine ⟨⟨401, ERROR_MESSAGES.NOT_FOUND⟩, ?_⟩
      simp only [cleared.get?_issued sound issued, no_admin, false_and, if_false]
      rfl

theorem Cleared.shared_chat_ids (cleared : Cleared shares id) (files : FileDatabase)
    (file_id : String) : get_shared_chat_ids_by_file_id (fileTables shares files) file_id =
      get_shared_chat_ids_by_file_id
        (fileTables { shares with chat := shares.chat.erase id } files) file_id := by
  have unlinked : ∀ row ∈ shares.chat.entries, row.1 = id → row.2.share_id = none := by
    rintro row member rfl
    exact cleared.unlinked row.2 (Dict.mem_entries_iff.mp member)
  simp only [get_shared_chat_ids_by_file_id, fileTables, Dict.erase, Assoc.erase, List.flatMap_map]
  generalize shares.chat.entries = rows at unlinked
  induction rows with
  | nil => rfl
  | cons row rest ih =>
    have later := ih (fun row member => unlinked row (List.mem_cons_of_mem _ member))
    rw [List.flatMap_cons, later]
    by_cases same : row.1 = id
    · have none := unlinked row List.mem_cons_self same
      simp [same, none]
    · simp [same]

theorem Cleared.revoked (cleared : Cleared shares id) (sound : Sound shares) :
    Revoked shares id where
  snapshot := by
    intro ENABLE_ADMIN_CHAT_ACCESS visitor outsider share_id
    exact cleared.refused_snapshot sound ENABLE_ADMIN_CHAT_ACCESS outsider share_id
  chat := by
    intro ENABLE_ADMIN_CHAT_ACCESS folder_access user outsider outside
    exact cleared.refused_chat ENABLE_ADMIN_CHAT_ACCESS outsider outside
  clone := by
    intro ENABLE_ADMIN_CHAT_ACCESS user outsider share_id
    exact cleared.refused_clone sound ENABLE_ADMIN_CHAT_ACCESS outsider share_id
  unlinked := cleared.unlinked
  ungranted := cleared.ungranted
  files := by
    intro files file_id access_type user_id user_group_ids
    have routes : ∀ groups file,
        AccessControl.reachesFile (fileTables shares files) access_type user_id groups file =
          AccessControl.reachesFile (fileTables { shares with chat := shares.chat.erase id } files)
            access_type user_id groups file := by
      intro groups file
      simp only [AccessControl.reachesFile, AccessControl.sharedChatAllows,
        cleared.shared_chat_ids files file.id]
      rfl
    simp only [has_access_to_file, routes]
    rfl

end Revocation

section Steps

variable {shares : Shares} {id : String}

theorem step_unshare_all_chats {caller : Caller} {rows : List String}
    (admitted : admits shares (.unshare_all_chats caller rows) = true) :
    step shares (.unshare_all_chats caller rows) = some (unshare_all_chats shares caller rows) := by
  simp only [step, admitted, handle, if_true]

theorem cleared_of_unshares (sound : Sound shares) {request : Request}
    (unshares : Unshares shares id request) (fits : OnOnePage shares request) {after : Shares}
    (stepped : step shares request = some after) : Cleared after id := by
  obtain ⟨admitted, outcome⟩ := step_cases stepped
  cases request with
  | delete_shared_chat_by_id caller chat_id =>
    obtain ⟨rfl, chat, stored, owner⟩ := unshares
    have own : get_chat_by_id_and_user_id shares chat_id caller.id = some chat := by
      rw [get_chat_by_id_and_user_id, stored, Option.filter_some, if_pos (decide_eq_true owner)]
    have accepted : ∃ done, delete_shared_chat_by_id shares caller chat_id = .ok done := by
      simp only [delete_shared_chat_by_id, findOwn, own]
      exact ⟨_, rfl⟩
    obtain ⟨done, accepted⟩ := accepted
    have stepped_to : step shares (.delete_shared_chat_by_id caller chat_id) = some done := by
      simp only [step, admits, handle, accepted, if_true]
    obtain rfl := Option.some.inj (stepped.symm.trans stepped_to)
    exact cleared_delete_shared_chat_by_id sound accepted
  | unshare_all_chats caller rows =>
    obtain ⟨share_id, shared, found, owner, rfl⟩ := unshares
    have own : rows.Perm (ownShares shares caller.id) :=
      List.isPerm_iff.mp (Bool.and_eq_true_iff.mp admitted).1
    have all_taken : rows.take 50 = rows := List.take_of_length_le (own.length_eq ▸ fits)
    have listed : shared.chat_id ∈ listedChats shares rows := by
      refine mem_listedChats.mpr ⟨share_id, ?_, shared, found, rfl⟩
      rw [all_taken]
      exact own.mem_iff.mpr (mem_ownShares.mpr ⟨shared, found, owner⟩)
    obtain rfl := Option.some.inj (stepped.symm.trans (step_unshare_all_chats admitted))
    exact cleared_clearAll listed (unsnapped_of_listed sound own listed)
  | insert_new_chat => exact unshares.elim
  | share_chat_by_id => exact unshares.elim
  | update_shared_chat_access_by_id => exact unshares.elim
  | delete_chat_by_id => exact unshares.elim
  | delete_all_user_chats => exact unshares.elim

theorem nodup_ownShares (user_id : String) : (ownShares shares user_id).Nodup :=
  ((List.filter_sublist).map Prod.fst).nodup shares.shared_chat.unique

theorem linked_of_overflow (sound : Sound shares) {request : Request}
    (overflows : ¬ OnOnePage shares request) {after : Shares}
    (stepped : step shares request = some after) :
    ∃ id, Unshares shares id request ∧ ¬ Revoked after id := by
  cases request with
  | unshare_all_chats caller rows =>
    obtain ⟨admitted, _⟩ := step_cases stepped
    have own : rows.Perm (ownShares shares caller.id) :=
      List.isPerm_iff.mp (Bool.and_eq_true_iff.mp admitted).1
    have more : 50 < rows.length := by
      rw [own.length_eq]
      exact Nat.lt_of_not_le overflows
    -- The first snapshot that is not on the page.
    have member : rows[50] ∈ ownShares shares caller.id := own.mem_iff.mp (List.getElem_mem more)
    obtain ⟨shared, found, owner⟩ := mem_ownShares.mp member
    obtain ⟨chat, stored, user, link⟩ := sound.linked _ shared found
    refine ⟨shared.chat_id, ⟨_, shared, found, owner, rfl⟩, ?_⟩
    intro revoked
    have distinct : rows.Nodup := own.nodup_iff.mpr (nodup_ownShares caller.id)
    have unlisted : shared.chat_id ∉ listedChats shares rows := by
      intro listed
      obtain ⟨share_id, taken, other, there, same⟩ := mem_listedChats.mp listed
      obtain ⟨chat', stored', _, link'⟩ := sound.linked share_id other there
      rw [same, stored] at stored'
      obtain rfl := Option.some.inj stored'
      have again : rows[50] = share_id := Option.some.inj (link.symm.trans link')
      obtain ⟨place, inside, at_place⟩ := List.mem_iff_getElem.mp taken
      rw [List.length_take] at inside
      rw [List.getElem_take, ← again, distinct.getElem_inj_iff] at at_place
      omega
    obtain rfl := Option.some.inj (stepped.symm.trans (step_unshare_all_chats admitted))
    have stays : (unshare_all_chats shares caller rows).chat.get? shared.chat_id = some chat := by
      rw [unshare_all_chats_eq, get?_chat_clearAll unlisted]
      exact stored
    have gone := revoked.unlinked chat stays
    rw [link] at gone
    cases gone
  | insert_new_chat => exact absurd trivial overflows
  | share_chat_by_id => exact absurd trivial overflows
  | update_shared_chat_access_by_id => exact absurd trivial overflows
  | delete_shared_chat_by_id => exact absurd trivial overflows
  | delete_chat_by_id => exact absurd trivial overflows
  | delete_all_user_chats => exact absurd trivial overflows

theorem sound_start (access : AccessGrants.Database) : Sound (start access) := by
  constructor
  · rintro share_id shared ⟨⟩
  · exact List.nodup_nil
  · rintro id chat ⟨⟩
  · rintro share_id shared ⟨⟩

theorem sound_run {run : List Request} {old final : Shares} (sound : Sound old)
    (ran : run.foldlM step old = some final) : Sound final := by
  refine @Runs.foldlM_invariant Request Shares step (fun _ _ => True) Sound ?_ _ _ sound _ ?_ ran
  · intro before request after holds _ stepped
    exact holds.step stepped
  · intro _ _ _ _ _ _
    trivial

/-- In every state that requests reach a snapshot is the only one of its chat, which is linked to it
and has the same owner. -/
theorem only_snapshot_linked {access : AccessGrants.Database} {run : List Request} {final : Shares}
    (ran : run.foldlM step (start access) = some final) {share_id : String} {shared : SharedChat}
    (found : final.shared_chat.get? share_id = some shared) :
    (∃ chat, final.chat.get? shared.chat_id = some chat ∧ chat.user_id = shared.user_id ∧
      chat.share_id = some share_id) ∧
      ∀ other another, final.shared_chat.get? other = some another →
        another.chat_id = shared.chat_id → other = share_id := by
  have sound := sound_run (sound_start access) ran
  obtain ⟨chat, stored, owner, link⟩ := sound.linked share_id shared found
  refine ⟨⟨chat, stored, owner, link⟩, ?_⟩
  intro other another found_other same
  obtain ⟨chat', stored', _, link'⟩ := sound.linked other another found_other
  rw [same, stored] at stored'
  obtain rfl := Option.some.inj stored'
  exact Option.some.inj (link'.symm.trans link)

theorem cleared_run {run : List Request} {old final : Shares} (cleared : Cleared old id)
    (quiet : Runs.Always (fun before request =>
      ∀ state, before.foldlM step old = some state → Quiet id state request) run)
    (ran : run.foldlM step old = some final) : Cleared final id := by
  refine Runs.foldlM_invariant (fun state => Cleared state id) ?_ cleared quiet ran
  intro before request after holds quiet stepped
  by_cases reshares : Reshares id request
  · obtain ⟨exception, refused⟩ := quiet reshares
    obtain ⟨_, done | rfl⟩ := step_cases stepped
    · rw [refused] at done
      cases done
    · exact holds
  · exact holds.step reshares stepped

end Steps

/-- Unsharing revokes in a run exactly when all who unshare their chats at once have at most one
page of them. -/
theorem unsharing_revokes_iff (access : AccessGrants.Database) (run : List Request) (final : Shares)
    (ran : run.foldlM step (start access) = some final) :
    UnsharingRevokes (start access) run ↔ Runs.Always (fun earlier request =>
      ∀ old, earlier.foldlM step (start access) = some old → OnOnePage old request) run := by
  constructor
  · intro revokes earlier request later split old reached
    by_contra overflows
    have sound := sound_run (sound_start access) reached
    rw [split, List.foldlM_append, Option.bind_eq_bind, Option.bind_eq_some_iff] at ran
    obtain ⟨before, reached', ran⟩ := ran
    obtain rfl := Option.some.inj (reached.symm.trans reached')
    rw [List.foldlM_cons, Option.bind_eq_bind, Option.bind_eq_some_iff] at ran
    obtain ⟨after, stepped, _⟩ := ran
    obtain ⟨id, unshares, kept⟩ := linked_of_overflow sound overflows stepped
    exact kept (revokes id earlier request [] later split old after reached stepped unshares
      (Runs.always_nil _) after rfl)
  · intro fits id earlier request between later split old new reached stepped unshares quiet state
      followed
    have sound := sound_run (sound_start access) reached
    have fits_here := fits earlier request (between ++ later) split old reached
    have cleared := cleared_of_unshares sound unshares fits_here stepped
    exact (cleared_run cleared quiet followed).revoked (sound_run (sound.step stepped) followed)

def alice : Caller := ⟨"alice", "user", fun _ => .ok true⟩

def noAccess : AccessGrants.Database := ⟨[], [], [], []⟩

def sharedOnce : List Request :=
  [.insert_new_chat "c" "alice" none false, .share_chat_by_id alice "c" "s" 1,
    .delete_shared_chat_by_id alice "c"]

theorem sharedOnce_revokes : UnsharingRevokes (start noAccess) sharedOnce := by
  have runs : (sharedOnce.foldlM step (start noAccess)).isSome = true := by decide +kernel
  obtain ⟨final, ran⟩ := Option.isSome_iff_exists.mp runs
  apply (unsharing_revokes_iff noAccess sharedOnce final ran).mpr
  intro earlier request later split old _
  have member : request ∈ sharedOnce := by
    rw [split]
    exact List.mem_append_right _ List.mem_cons_self
  simp only [sharedOnce, List.mem_cons, List.not_mem_nil, or_false] at member
  rcases member with rfl | rfl | rfl
  · trivial
  · trivial
  · trivial

theorem sharedOnce_linked : ∃ final shared chat,
    (sharedOnce.take 2).foldlM step (start noAccess) = some final ∧
      final.shared_chat.get? "s" = some shared ∧ final.chat.get? shared.chat_id = some chat ∧
        chat.share_id = some "s" := by
  have stored : (((sharedOnce.take 2).foldlM step (start noAccess)).bind (fun final =>
      final.shared_chat.get? "s")).isSome = true := by decide +kernel
  obtain ⟨shared, found⟩ := Option.isSome_iff_exists.mp stored
  obtain ⟨final, ran, found⟩ := Option.bind_eq_some_iff.mp found
  obtain ⟨chat, there, _, link⟩ := (only_snapshot_linked ran found).1
  exact ⟨final, shared, chat, ran, found, there, link⟩

def numbered (place : Nat) : String := toString place

def manyShares (count : Nat) : List Request :=
  (List.range count).map (fun place => .insert_new_chat (numbered place) "alice" none false) ++
    (List.range count).map (fun place =>
      .share_chat_by_id alice (numbered place) (numbered place) 1)

def unshareAll (count : Nat) : Request :=
  .unshare_all_chats alice ((List.range count).map numbered)

/-- Of 51 shared chats one stays linked when all are unshared. -/
theorem manyShares_not_revoked :
    ¬ UnsharingRevokes (start noAccess) (manyShares 51 ++ [unshareAll 51]) := by
  have runs : ((manyShares 51).foldlM step (start noAccess)).any (fun old =>
      (step old (unshareAll 51)).isSome && decide (50 < (ownShares old "alice").length)) = true := by
    decide +kernel
  obtain ⟨old, reached, shown⟩ := (Option.any_eq_true _ _).mp runs
  obtain ⟨stepped, more⟩ := Bool.and_eq_true_iff.mp shown
  obtain ⟨new, stepped⟩ := Option.isSome_iff_exists.mp stepped
  have sound := sound_run (sound_start noAccess) reached
  have overflows : ¬ OnOnePage old (unshareAll 51) := Nat.not_le_of_lt (of_decide_eq_true more)
  obtain ⟨id, unshares, kept⟩ := linked_of_overflow sound overflows stepped
  intro revokes
  exact kept (revokes id (manyShares 51) (unshareAll 51) [] [] rfl old new reached stepped unshares
    (Runs.always_nil _) new rfl)

end OpenWebui.SharedChats
