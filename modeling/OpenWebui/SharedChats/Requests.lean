import OpenWebui.AccessControl.Files
import OpenWebui.AccessGrants.Sharing
import OpenWebui.Base.Dict
import OpenWebui.Utils.Routes

/-! Shared chats: the snapshot under its share id, the share id on the chat, and the grants. -/

namespace OpenWebui.SharedChats

open AccessGrants (Payload has_access)

structure Chat where
  user_id : String
  share_id : Option String
  folder_id : Option String
  internal : Bool

structure SharedChat where
  chat_id : String
  user_id : String
  updated_at : Int

/-- The tables, and every share id that was made, with its chat. -/
structure Shares where
  chat : Dict String Chat
  shared_chat : Dict String SharedChat
  access : AccessGrants.Database
  issued : List (String × String)

/-- The requests. The rows of `unshare_all_chats` are the share ids of the user in the order in which
the database gives them, and the children of a chat are internal chats. -/
inductive Request where
  | insert_new_chat (id user_id : String) (folder_id : Option String) (internal : Bool)
  | share_chat_by_id (caller : Caller) (id uuid : String) (now : Int)
  | update_shared_chat_access_by_id (caller : Caller) (id : String) (access_grants : List Payload)
      (grant_uuid : Nat → String) (now : Int)
  | delete_shared_chat_by_id (caller : Caller) (id : String)
  | unshare_all_chats (caller : Caller) (rows : List String)
  | delete_chat_by_id (caller : Caller) (id : String) (children : List String)
  | delete_all_user_chats (caller : Caller)

section Queries

variable (shares : Shares)

def get_chat_by_id_and_user_id (id user_id : String) : Option Chat :=
  (shares.chat.get? id).filter (fun chat => decide (chat.user_id = user_id))

def update_chat_share_id_by_id (id : String) (share_id : Option String) : Shares :=
  { shares with chat := shares.chat.modify id (fun chat => { chat with share_id := share_id }) }

/-- `set_access_grants` for a shared chat, with no grants. -/
def clearGrants (id : String) : Shares :=
  { shares with
    access := AccessGrants.set_access_grants (fun _ => "") 0 shares.access "shared_chat" id [] }

def create (id user_id uuid : String) (now : Int) : Shares :=
  { shares with
    shared_chat := shares.shared_chat.set uuid ⟨id, user_id, now⟩
    issued := (uuid, id) :: shares.issued }

def update (share_id : String) (now : Int) : Option Shares :=
  match shares.shared_chat.get? share_id with
  | none => none
  | some shared =>
    if (shares.chat.get? shared.chat_id).isSome then
      some { shares with
        shared_chat := shares.shared_chat.modify share_id (fun shared =>
          { shared with updated_at := now }) }
    else none

def ownShares (user_id : String) : List String :=
  (shares.shared_chat.entries.filter (fun row => decide (row.2.user_id = user_id))).map Prod.fst

def delete_by_chat_id (id : String) : Shares :=
  { shares with
    shared_chat := shares.shared_chat.filterMapValue (fun shared =>
      if shared.chat_id = id then none else some shared) }

def delete_all_by_user_id (user_id : String) : Shares :=
  { shares with
    shared_chat := shares.shared_chat.filterMapValue (fun shared =>
      if shared.user_id = user_id then none else some shared) }

def delete_chat (id : String) : Shares :=
  delete_by_chat_id { shares with chat := shares.chat.erase id } id

def delete_chat_by_id_and_user_id (id user_id : String) : Shares :=
  if (get_chat_by_id_and_user_id shares id user_id).isSome then delete_chat shares id
  else delete_by_chat_id shares id

def refuse {α : Type} (status_code : Nat) (detail : String) : Except HTTPException α :=
  .error ⟨status_code, detail⟩

def requirePermission (caller : Caller) (key : String) (status_code : Nat) :
    Except HTTPException Unit := do
  if caller.role = "admin" then .ok ()
  else
    let allowed ← raised (caller.has_permission key)
    if allowed then .ok () else refuse status_code ERROR_MESSAGES.ACCESS_PROHIBITED

def findOwn (caller : Caller) (id : String) : Except HTTPException Chat :=
  match get_chat_by_id_and_user_id shares id caller.id with
  | some chat => .ok chat
  | none => refuse 401 ERROR_MESSAGES.ACCESS_PROHIBITED

def share_chat_by_id (caller : Caller) (id uuid : String) (now : Int) :
    Except HTTPException Shares := do
  requirePermission caller "chat.share" 401
  let chat ← findOwn shares caller id
  match (chat.share_id.filter (fun share_id => decide (share_id ≠ ""))).bind (fun share_id =>
      update shares share_id now) with
  | some updated => .ok updated
  | none => .ok (update_chat_share_id_by_id (create shares id caller.id uuid now) id (some uuid))

def update_shared_chat_access_by_id (caller : Caller) (id : String) (access_grants : List Payload)
    (grant_uuid : Nat → String) (now : Int) : Except HTTPException Shares := do
  let found := if caller.role = "admin" then shares.chat.get? id
    else get_chat_by_id_and_user_id shares id caller.id
  match found with
  | none => refuse 404 ERROR_MESSAGES.NOT_FOUND
  | some _ =>
    let access_grants ← raised (AccessGrants.filter_allowed_access_grants caller.has_permission
      caller.role access_grants "sharing.public_chats" (some "sharing.open_chats"))
    .ok { shares with
      access := AccessGrants.set_access_grants grant_uuid now shares.access "shared_chat" id
        access_grants }

def delete_shared_chat_by_id (caller : Caller) (id : String) : Except HTTPException Shares := do
  let chat ← findOwn shares caller id
  let deleted := delete_by_chat_id shares id
  let unshared := if (chat.share_id.filter (fun share_id => decide (share_id ≠ ""))).isSome then
      update_chat_share_id_by_id deleted id none
    else deleted
  .ok (clearGrants unshared id)

/-- The chats of the latest snapshots, with the limit that `get_by_user_id` has when none is given. -/
def listedChats (rows : List String) : List String :=
  (rows.take 50).filterMap (fun share_id =>
    (shares.shared_chat.get? share_id).map SharedChat.chat_id)

def unshare_all_chats (caller : Caller) (rows : List String) : Shares :=
  (listedChats shares rows).foldl (fun shares id =>
    clearGrants (update_chat_share_id_by_id shares id none) id)
    (delete_all_by_user_id shares caller.id)

def delete_chat_by_id (caller : Caller) (id : String) (children : List String) :
    Except HTTPException Shares := do
  let found ← (if caller.role = "admin" then .ok (shares.chat.get? id)
    else (requirePermission caller "chat.delete" 401).map (fun _ =>
      get_chat_by_id_and_user_id shares id caller.id))
  match found with
  | none => refuse 404 ERROR_MESSAGES.NOT_FOUND
  | some chat =>
    let left := children.foldl (fun shares child =>
      delete_chat_by_id_and_user_id shares child chat.user_id) shares
    .ok (if caller.role = "admin" then delete_chat left id
      else delete_chat_by_id_and_user_id left id caller.id)

/-- The permission is asked of the role `user` alone. -/
def delete_all_user_chats (caller : Caller) : Except HTTPException Shares := do
  (if caller.role = "user" then requirePermission caller "chat.delete" 401 else .ok ())
  let deleted := delete_all_by_user_id shares caller.id
  .ok { deleted with
    chat := deleted.chat.filterMapValue (fun chat =>
      if chat.user_id = caller.id then none else some chat) }

def handle : Request → Except HTTPException Shares
  | .insert_new_chat id user_id folder_id internal =>
    .ok { shares with chat := shares.chat.set id ⟨user_id, none, folder_id, internal⟩ }
  | .share_chat_by_id caller id uuid now => share_chat_by_id shares caller id uuid now
  | .update_shared_chat_access_by_id caller id access_grants grant_uuid now =>
    update_shared_chat_access_by_id shares caller id access_grants grant_uuid now
  | .delete_shared_chat_by_id caller id => delete_shared_chat_by_id shares caller id
  | .unshare_all_chats caller rows => .ok (unshare_all_chats shares caller rows)
  | .delete_chat_by_id caller id children => delete_chat_by_id shares caller id children
  | .delete_all_user_chats caller => delete_all_user_chats shares caller

def latestFirst (rows : List String) : Bool :=
  decide ((rows.map (fun share_id => (shares.shared_chat.get? share_id).map
    SharedChat.updated_at)).Pairwise (fun first second =>
      first.any (fun first => second.any (fun second => decide (second ≤ first)))))

def admits : Request → Bool
  | .insert_new_chat id _ _ _ => decide (id ∉ shares.chat.keys)
  | .share_chat_by_id _ _ uuid _ => decide (uuid ≠ "") && decide (uuid ∉ shares.issued.map Prod.fst)
  | .unshare_all_chats caller rows =>
    rows.isPerm (ownShares shares caller.id) && latestFirst shares rows
  | _ => true

def step (request : Request) : Option Shares :=
  if admits shares request then
    match handle shares request with
    | .ok after => some after
    | .error _ => some shares
  else none

variable (ENABLE_ADMIN_CHAT_ACCESS : Bool)

def is_open_shared_chat (chat_id : String) : Bool :=
  shares.access.access_grant.any (fun grant =>
    decide (grant.resource_type = "shared_chat") && decide (grant.resource_id = chat_id) &&
      decide (grant.principal_type = "anyone") && decide (grant.principal_id = "*") &&
        decide (grant.permission = "read"))

def can_read_shared_chat (user : Caller) (shared : SharedChat) : Bool :=
  if user.role = "pending" then false
  else (decide (user.role = "admin") && ENABLE_ADMIN_CHAT_ACCESS) ||
    decide (shared.user_id = user.id) ||
      has_access shares.access user.id "shared_chat" shared.chat_id "read" none

/-- `GET /chats/share/{share_id}`: the chat that is shown. -/
def get_shared_chat_by_id (visitor : Option Caller) (share_id : String) :
    Except HTTPException String :=
  match shares.shared_chat.get? share_id with
  | some shared =>
    if is_open_shared_chat shares shared.chat_id ||
        visitor.any (fun user => can_read_shared_chat shares ENABLE_ADMIN_CHAT_ACCESS user shared) then
      .ok shared.chat_id
    else refuse 401 ERROR_MESSAGES.ACCESS_PROHIBITED
  | none =>
    if visitor.any (fun user => decide (user.role = "admin")) && ENABLE_ADMIN_CHAT_ACCESS &&
        (shares.chat.get? share_id).isSome then .ok share_id
    else refuse 401 ERROR_MESSAGES.NOT_FOUND

/-- `GET /chats/{id}`, with the access that users have to folders. -/
def get_chat_by_id (folder_access : String → String → Bool) (user : Caller) (id : String) :
    Except HTTPException Chat :=
  let own := get_chat_by_id_and_user_id shares id user.id
  let asAdmin := if user.role = "admin" then
      (shares.chat.get? id).filter (fun chat => ENABLE_ADMIN_CHAT_ACCESS || chat.internal)
    else none
  let granted := if has_access shares.access user.id "shared_chat" id "read" none then
      shares.chat.get? id
    else none
  let inFolder := (shares.chat.get? id).filter (fun chat =>
    chat.folder_id.any (fun folder_id => decide (folder_id ≠ "") && folder_access user.id folder_id))
  match ((own.or asAdmin).or granted).or inFolder with
  | some chat => .ok chat
  | none => refuse 401 ERROR_MESSAGES.NOT_FOUND

/-- `POST /chats/{id}/clone/shared`: the chat that is copied. -/
def clone_shared_chat_by_id (user : Caller) (id : String) : Except HTTPException String := do
  requirePermission user "chat.import" 403
  match shares.shared_chat.get? id with
  | some shared =>
    if decide (user.role = "admin") || decide (shared.user_id = user.id) ||
        is_open_shared_chat shares shared.chat_id ||
          has_access shares.access user.id "shared_chat" shared.chat_id "read" none then
      .ok shared.chat_id
    else refuse 401 ERROR_MESSAGES.ACCESS_PROHIBITED
  | none =>
    if user.role = "admin" ∧ ENABLE_ADMIN_CHAT_ACCESS = true ∧ (shares.chat.get? id).isSome then
      .ok id
    else refuse 401 ERROR_MESSAGES.NOT_FOUND

def fileTables (files : AccessControl.FileDatabase) : AccessControl.FileDatabase :=
  { files with
    toDatabase := shares.access
    chat := shares.chat.entries.map (fun row => ⟨row.1, row.2.share_id⟩) }

end Queries

end OpenWebui.SharedChats
