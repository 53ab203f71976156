import OpenWebui.Base.Numbering
import OpenWebui.Folders.Requests

/-! The folders that others share with a user, as the listing finds them from the grants down, and
what a check of access finds from a folder up. -/

namespace OpenWebui.Folders

open AccessGrants

structure SharedFolder where
  folder : FolderModel
  owner_name : String
  permission : String
  deriving DecidableEq

def SharedFolder.id (shared : SharedFolder) : String := shared.folder.1

/-- Once a folder has `write` it keeps it. -/
def keepHighest (folder_perms : Dict String String) (grant : AccessGrant) : Dict String String :=
  if folder_perms.get? grant.resource_id ≠ some "write" then
    folder_perms.set grant.resource_id grant.permission
  else folder_perms

def get_shared_folder_ids_for_user (db : Database) (user_id : String)
    (user_group_ids : List String) : Dict String String :=
  (db.access_grant.filter (fun grant => decide (grant.resource_type = "folder") &&
    conditions user_id user_group_ids grant)).foldl keepHighest Dict.empty

section Listing

variable (db : FolderDatabase)

def addShared (user_name : String → Option String) (user_id : String)
    (state : List SharedFolder × Dict String String) (granted : String × String) :
    List SharedFolder × Dict String String :=
  match get_folder_by_id db.folder granted.1 with
  | none => state
  | some folder =>
    if folder.2.user_id = user_id then state
    else
      let owner_cache := if folder.2.user_id ∈ state.2.keys then state.2
        else state.2.set folder.2.user_id ((user_name folder.2.user_id).getD "Unknown")
      (state.1 ++ [⟨folder, (owner_cache.get? folder.2.user_id).getD "Unknown", granted.2⟩],
        owner_cache)

def sharedChild (owner_cache folder_perms : Dict String String) (root_id : String)
    (child : FolderModel) : SharedFolder :=
  ⟨child, (owner_cache.get? child.2.user_id).getD "Unknown", (folder_perms.get? root_id).getD "read"⟩

def addRoot (owner_cache folder_perms : Dict String String) (fuel : Nat)
    (results : List SharedFolder) (root_id : String) : Option (List SharedFolder) :=
  match get_folder_by_id db.folder root_id with
  | none => some results
  | some root_folder =>
    (get_children_folders_by_id_and_user_id db.folder fuel root_id root_folder.2.user_id).map
      (fun children => ((children.getD []).map (sharedChild owner_cache folder_perms root_id)).foldl
        (appendNew SharedFolder.id) results)

def get_shared_folders (order : List String → List String) (user_name : String → Option String)
    (fuel : Nat) (user_id : String) (permitted : Bool) : Except Failure (List SharedFolder) :=
  if !permitted then .error .forbidden
  else
    let group_ids := (get_groups_by_member_id db.toDatabase user_id).map (fun group => group.id)
    let folder_perms := get_shared_folder_ids_for_user db.toDatabase user_id group_ids
    let shared := folder_perms.entries.foldl (addShared db user_name user_id) ([], Dict.empty)
    match (order (shared.1.map SharedFolder.id)).foldlM (addRoot db shared.2 folder_perms fuel)
      shared.1 with
    | none => .error .diverges
    | some results => .ok results

end Listing

/-- Children have the owner of their parent. -/
def OwnedAlike (folder : Dict String Folder) : Prop :=
  ∀ child row parent above, folder.get? child = some row → row.parent_id = some parent →
    folder.get? parent = some above → row.user_id = above.user_id

/-- A grant of the permission on the folder admits the user. -/
def GrantedWith (db : FolderDatabase) (user_id permission id : String) : Prop :=
  Allowed db.toDatabase user_id (groupIds db.toDatabase user_id none) "folder" id permission

/-- A grant of whatever permission on the folder admits the user. -/
def Granted (db : FolderDatabase) (user_id id : String) : Prop :=
  ∃ permission, GrantedWith db user_id permission id

/-- The folder, or one above it that is there, meets a condition. -/
def Inherits (db : FolderDatabase) (holds : String → Prop) (id : String) : Prop :=
  ∃ top ∈ db.folder.keys, Relation.ReflTransGen (links db.folder).Edge id top ∧ holds top

/-- What a question of access answers in the end. -/
def HasFolderAccess (db : FolderDatabase) (user_id permission : String) (found : FolderModel) : Prop :=
  ∃ fuel, has_folder_access db user_id permission fuel found = some true

theorem OwnedAlike.above {folder : Dict String Folder} (alike : OwnedAlike folder)
    {id top : String} (path : Relation.ReflTransGen (links folder).Edge id top) {row above : Folder}
    (stored : folder.get? id = some row) (there : folder.get? top = some above) :
    row.user_id = above.user_id := by
  induction path using Relation.ReflTransGen.head_induction_on generalizing row with
  | refl => rw [Option.some.inj (stored.symm.trans there)]
  | head edge rest ih =>
    obtain ⟨own, found, named⟩ := edge_iff.mp edge
    obtain rfl := Option.some.inj (stored.symm.trans found)
    rcases Relation.ReflTransGen.cases_head_iff.mp rest with rfl | ⟨_, next, _⟩
    · exact alike _ _ _ _ stored named there
    · obtain ⟨parent, up, _⟩ := edge_iff.mp next
      exact (alike _ _ _ _ stored named up).trans (ih up)

theorem parentFolder_of_edge {db : FolderDatabase} {child : Folder} {id : String} {row : Folder}
    (named : child.parent_id = some id) (stored : db.folder.get? id = some row) :
    parentFolder db.folder child = some (id, row) := by
  have there : id ≠ "" := by
    rintro rfl
    exact db.named (Dict.mem_keys_of_get? stored)
  have kept : (some id).filter (fun parent_id => decide (parent_id ≠ "")) = some id :=
    Option.filter_eq_some_iff.mpr ⟨rfl, decide_eq_true there⟩
  rw [parentFolder, named, kept, Option.bind_some, get_folder_by_id, stored, Option.map_some]

theorem hasFolderAccess_iff {db : FolderDatabase} (alike : OwnedAlike db.folder)
    {user_id permission : String} {found : FolderModel}
    (stored : db.folder.get? found.1 = some found.2) (other : found.2.user_id ≠ user_id) :
    HasFolderAccess db user_id permission found ↔
      Inherits db (GrantedWith db user_id permission) found.1 := by
  constructor
  · rintro ⟨fuel, answered⟩
    induction fuel generalizing found with
    | zero => cases answered
    | succ fuel ih =>
      rw [has_folder_access, if_neg other] at answered
      split at answered
      · rename_i direct
        exact ⟨found.1, Dict.mem_keys_of_get? stored, .refl, (has_access_iff _ _ _ _ _ _).mp direct⟩
      split at answered
      · cases answered
      · rename_i parent up
        obtain ⟨edge, there⟩ := parent_edge stored up
        have alien : parent.2.user_id ≠ user_id := by
          rwa [← alike.above (.single edge) stored there]
        obtain ⟨top, kept, path, granted⟩ := ih there alien answered
        exact ⟨top, kept, path.head edge, granted⟩
  · rintro ⟨top, kept, path, granted⟩
    obtain ⟨id, row⟩ := found
    simp only at stored other path
    induction path using Relation.ReflTransGen.head_induction_on generalizing row with
    | refl =>
      have direct := (has_access_iff _ _ _ _ _ none).mpr granted
      exact ⟨1, by simp [has_folder_access, other, direct]⟩
    | @head child next edge rest ih =>
      obtain ⟨own, found, named⟩ := edge_iff.mp edge
      obtain rfl := Option.some.inj (stored.symm.trans found)
      have above : ∃ parent, db.folder.get? next = some parent := by
        rcases Relation.ReflTransGen.cases_head_iff.mp rest with rfl | ⟨_, upper, _⟩
        · exact Dict.exists_of_mem_keys kept
        · obtain ⟨parent, up, _⟩ := edge_iff.mp upper
          exact ⟨parent, up⟩
      obtain ⟨parent, up⟩ := above
      have alien : parent.user_id ≠ user_id := by
        rwa [← alike.above (.single edge) stored up]
      obtain ⟨fuel, answered⟩ := ih parent up alien
      refine ⟨fuel + 1, ?_⟩
      rw [has_folder_access, if_neg other, parentFolder_of_edge named up]
      split
      · rfl
      · exact answered

theorem get?_keepHighest (folder_perms : Dict String String) (grant : AccessGrant) (id : String) :
    (keepHighest folder_perms grant).get? id = some "write" ↔
      folder_perms.get? id = some "write" ∨ (grant.resource_id = id ∧ grant.permission = "write") := by
  unfold keepHighest
  by_cases same : grant.resource_id = id
  · subst same
    by_cases kept : folder_perms.get? grant.resource_id = some "write" <;> simp [kept]
  · split <;> simp [same]

theorem get?_foldl_keepHighest (grants : List AccessGrant) (folder_perms : Dict String String)
    (id : String) :
    (grants.foldl keepHighest folder_perms).get? id = some "write" ↔
      folder_perms.get? id = some "write" ∨
        ∃ grant ∈ grants, grant.resource_id = id ∧ grant.permission = "write" := by
  induction grants generalizing folder_perms with
  | nil => simp
  | cons grant rest ih => rw [List.foldl_cons, ih, get?_keepHighest]; simp [or_assoc]

theorem mem_keys_keepHighest (folder_perms : Dict String String) (grant : AccessGrant)
    (id : String) : id ∈ (keepHighest folder_perms grant).keys ↔
      id ∈ folder_perms.keys ∨ grant.resource_id = id := by
  unfold keepHighest
  split
  · rw [Dict.mem_keys_set, or_comm, eq_comm]
  · rename_i kept
    rw [not_not] at kept
    refine ⟨Or.inl, ?_⟩
    rintro (member | rfl)
    · exact member
    · exact Dict.mem_keys_of_get? kept

theorem mem_keys_foldl_keepHighest (grants : List AccessGrant) (folder_perms : Dict String String)
    (id : String) : id ∈ (grants.foldl keepHighest folder_perms).keys ↔
      id ∈ folder_perms.keys ∨ ∃ grant ∈ grants, grant.resource_id = id := by
  induction grants generalizing folder_perms with
  | nil => simp
  | cons grant rest ih => rw [List.foldl_cons, ih, mem_keys_keepHighest]; simp [or_assoc]

def folderPerms (db : FolderDatabase) (user_id : String) : Dict String String :=
  get_shared_folder_ids_for_user db.toDatabase user_id
    ((get_groups_by_member_id db.toDatabase user_id).map (fun group => group.id))

theorem mem_folderPerms_iff (db : FolderDatabase) (user_id id : String) :
    id ∈ (folderPerms db user_id).keys ↔ Granted db user_id id := by
  rw [folderPerms, get_shared_folder_ids_for_user, mem_keys_foldl_keepHighest]
  simp only [Dict.keys_empty, List.not_mem_nil, false_or, List.mem_filter, Bool.and_eq_true,
    decide_eq_true_eq, conditions_iff]
  constructor
  · rintro ⟨grant, ⟨stored, kind, admitted⟩, same⟩
    exact ⟨grant.permission, grant, stored, ⟨kind, same, rfl⟩, admitted⟩
  · rintro ⟨_, grant, stored, ⟨kind, same, _⟩, admitted⟩
    exact ⟨grant, ⟨stored, kind, admitted⟩, same⟩

theorem write_folderPerms_iff (db : FolderDatabase) (user_id id : String) :
    (folderPerms db user_id).get? id = some "write" ↔ GrantedWith db user_id "write" id := by
  rw [folderPerms, get_shared_folder_ids_for_user, get?_foldl_keepHighest]
  simp only [Dict.get?_empty, reduceCtorEq, false_or, List.mem_filter, Bool.and_eq_true,
    decide_eq_true_eq, conditions_iff]
  constructor
  · rintro ⟨grant, ⟨stored, kind, admitted⟩, same, write⟩
    exact ⟨grant, stored, ⟨kind, same, write⟩, admitted⟩
  · rintro ⟨grant, stored, ⟨kind, same, write⟩, admitted⟩
    exact ⟨grant, ⟨stored, kind, admitted⟩, same, write⟩

end OpenWebui.Folders
