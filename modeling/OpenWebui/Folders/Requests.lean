import Mathlib.Data.List.Induction
import OpenWebui.Base.Runs
import OpenWebui.Folders.Table

/-! The requests that create, move and delete folders, and when the table they leave behind is
a forest: a move is never checked against the folders above its target. -/

namespace OpenWebui.Folders

open AccessGrants

inductive Failure where
  | forbidden
  | badRequest (detail : String)
  | notFound
  | diverges
  deriving DecidableEq

structure FolderForm where
  name : String
  parent_id : Option String

/-- What a request is told by the rest of the program: whether folders are enabled for the user,
what the checks of the files and of the owner say, and whether the chats of the folders may not
be deleted. -/
structure Answers where
  permitted : Bool
  files : Except Failure Unit
  chats_kept : Bool

abbrev GeneratedId := {id : String // id ≠ ""}

def insert_new_folder (db : FolderDatabase) (id : GeneratedId) (user_id : String)
    (form_data : FolderForm) : FolderDatabase :=
  { db with
    folder := db.folder.set id.1 ⟨form_data.parent_id, user_id, form_data.name⟩
    named := by
      rw [Dict.mem_keys_set]
      exact fun named => named.elim (fun same => id.2 same.symm) db.named }

def createShared (fuel : Nat) (db : FolderDatabase) (user_id role : String) (parent : FolderModel)
    (form_data : FolderForm) (id : GeneratedId) (answers : Answers) :
    Except Failure FolderDatabase :=
  match if role = "admin" then some true else has_folder_access db user_id "write" fuel parent with
  | none => .error .diverges
  | some false => .error .forbidden
  | some true => answers.files.map (fun _ => insert_new_folder db id parent.2.user_id form_data)

def create_folder (ilike : String → String → Bool) (fuel : Nat) (db : FolderDatabase)
    (user_id role : String) (form_data : FolderForm) (id : GeneratedId) (answers : Answers) :
    Except Failure FolderDatabase :=
  if !answers.permitted then .error .forbidden
  else if (get_folder_by_parent_id_and_user_id_and_name db.folder ilike form_data.parent_id user_id
      form_data.name).isSome then
    .error (.badRequest "Folder already exists")
  else
    match (form_data.parent_id.filter (fun parent_id => decide (parent_id ≠ ""))).bind
      (get_folder_by_id db.folder) with
    | some parent =>
      if parent.2.user_id ≠ user_id then
        createShared fuel db user_id role parent form_data id answers
      else answers.files.map (fun _ => insert_new_folder db id user_id form_data)
    | none => answers.files.map (fun _ => insert_new_folder db id user_id form_data)

def setParent (db : FolderDatabase) (id : String) (parent_id : Option String) : FolderDatabase :=
  { db with
    folder := db.folder.modify id (fun row => { row with parent_id := parent_id })
    named := by
      rw [Dict.keys_modify]
      exact db.named }

def update_folder_parent_id_by_id (ilike : String → String → Bool) (db : FolderDatabase)
    (user_id id : String) (parent_id : Option String) (answers : Answers) :
    Except Failure FolderDatabase :=
  if !answers.permitted then .error .forbidden
  else
    match get_folder_by_id_and_user_id db.folder id user_id with
    | none => .error .notFound
    | some found =>
      if (get_folder_by_parent_id_and_user_id_and_name db.folder ilike parent_id user_id
          found.2.name).isSome then
        .error (.badRequest "Folder already exists")
      else .ok (setParent db id parent_id)

def removeFolders (db : FolderDatabase) (left : Dict String Folder) (smaller : Within left db.folder)
    (folder_ids : List String) : FolderDatabase :=
  { db with
    folder := left
    access_grant := db.access_grant.filter (fun grant =>
      decide (¬ (grant.resource_type = "folder" ∧ grant.resource_id ∈ folder_ids)))
    named := fun named => by
      obtain ⟨row, found⟩ := Dict.exists_of_mem_keys named
      exact db.named (Dict.mem_keys_of_get? (smaller "" row found)) }

def deleteOwned (fuel : Nat) (db : FolderDatabase) (id owner_id : String) (answers : Answers) :
    Except Failure FolderDatabase :=
  match get_folder_ids_by_id_and_user_id_in_subtree db.folder fuel id owner_id with
  | none => .error .diverges
  | some _ =>
    if answers.chats_kept then .error .forbidden
    else
      match done : delete_folder_by_id_and_user_id fuel db.folder id owner_id with
      | none => .error .diverges
      | some deleted => .ok (removeFolders db deleted.1 (delete_within done) deleted.2)

def delete_folder_by_id (fuel : Nat) (db : FolderDatabase) (user_id role id : String)
    (answers : Answers) : Except Failure FolderDatabase :=
  if !answers.permitted then .error .forbidden
  else
    match get_folder_by_id db.folder id with
    | none => .error .notFound
    | some found =>
      if found.2.user_id ≠ user_id ∧ role ≠ "admin" then .error .forbidden
      else deleteOwned fuel db id found.2.user_id answers

/-- A request, and whatever changes users, groups and grants between requests. -/
inductive Request where
  | create (user_id role : String) (form_data : FolderForm) (id : GeneratedId) (answers : Answers)
  | move (user_id id : String) (parent_id : Option String) (answers : Answers)
  | delete (user_id role id : String) (answers : Answers)
  | share (access : AccessGrants.Database)

section Run

variable (ilike : String → String → Bool) (fuel : Nat)

def handle (db : FolderDatabase) : Request → Except Failure FolderDatabase
  | .create user_id role form_data id answers =>
    create_folder ilike fuel db user_id role form_data id answers
  | .move user_id id parent_id answers =>
    update_folder_parent_id_by_id ilike db user_id id parent_id answers
  | .delete user_id role id answers => delete_folder_by_id fuel db user_id role id answers
  | .share access => .ok { db with toDatabase := access }

def apply (db : FolderDatabase) (request : Request) : FolderDatabase :=
  ((handle ilike fuel db request).toOption).getD db

def emptyDatabase : FolderDatabase where
  access_grant := []
  group := []
  group_member := []
  user := []
  folder := Dict.empty
  named := List.not_mem_nil

def after (requests : List Request) : FolderDatabase :=
  requests.foldl (apply ilike fuel) emptyDatabase

@[simp] theorem after_append (requests : List Request) (request : Request) :
    after ilike fuel (requests ++ [request]) =
      apply ilike fuel (after ilike fuel requests) request := by
  simp [after]

end Run

/-- The id of a new folder is new: no row has it, and neither a row nor the request itself names
it as a parent. -/
def Generated (db : FolderDatabase) : Request → Prop
  | .create _ _ form_data id _ => id.1 ∉ db.folder.keys ∧
      (∀ other row, db.folder.get? other = some row → row.parent_id ≠ some id.1) ∧
        form_data.parent_id ≠ some id.1
  | _ => True

/-- A move that is carried out does not put a folder under itself or one below it. -/
def MovesApart (ilike : String → String → Bool) (db : FolderDatabase) : Request → Prop
  | .move user_id id parent_id answers =>
    (update_folder_parent_id_by_id ilike db user_id id parent_id answers).toOption.isSome = true →
      ∀ parent, parent_id = some parent →
        ¬ Relation.ReflTransGen (links db.folder).Edge parent id
  | _ => True

/-- The table is a forest, and so every walk over it stops. -/
structure Forest (db : FolderDatabase) : Prop where
  acyclic : Acyclic db.folder
  stops : ∀ id user_id permission, Stops db id user_id permission

theorem forest_of_acyclic {db : FolderDatabase} (acyclic : Acyclic db.folder) : Forest db :=
  ⟨acyclic, stops_of_acyclic acyclic⟩

theorem apply_of_ok {ilike : String → String → Bool} {fuel : Nat} {db next : FolderDatabase}
    {request : Request} (done : handle ilike fuel db request = .ok next) :
    apply ilike fuel db request = next := by
  rw [apply, done]
  rfl

theorem apply_of_error {ilike : String → String → Bool} {fuel : Nat} {db : FolderDatabase}
    {request : Request} {failure : Failure} (done : handle ilike fuel db request = .error failure) :
    apply ilike fuel db request = db := by
  rw [apply, done]
  rfl

theorem insert_acyclic {db : FolderDatabase} (acyclic : Acyclic db.folder) {id : GeneratedId}
    (unnamed : ∀ other row, db.folder.get? other = some row → row.parent_id ≠ some id.1)
    (user_id : String) {form_data : FolderForm} (apart : form_data.parent_id ≠ some id.1) :
    Acyclic (insert_new_folder db id user_id form_data).folder := by
  refine ParentLinks.Acyclic.of_new acyclic id.1 ?_ ?_
  · intro child parent edge different
    obtain ⟨row, found, named⟩ := edge_iff.mp edge
    rw [insert_new_folder, Dict.get?_set, if_neg (Ne.symm different)] at found
    exact edge_iff.mpr ⟨row, found, named⟩
  · intro child edge
    obtain ⟨row, found, named⟩ := edge_iff.mp edge
    rw [insert_new_folder, Dict.get?_set] at found
    split at found
    · obtain rfl := Option.some.inj found
      exact apart named
    · exact unnamed child row found named

section

variable {ilike : String → String → Bool} {fuel : Nat} {db next : FolderDatabase}
  {user_id role id : String} {answers : Answers}

theorem create_inserted {form_data : FolderForm} {new_id : GeneratedId}
    (done : create_folder ilike fuel db user_id role form_data new_id answers = .ok next) :
    ∃ owner, next = insert_new_folder db new_id owner form_data ∧
      ∀ parent above, form_data.parent_id = some parent → db.folder.get? parent = some above →
        owner = above.user_id := by
  have inserted {owner : String} (checked : answers.files.map (fun _ =>
      insert_new_folder db new_id owner form_data) = .ok next) :
      next = insert_new_folder db new_id owner form_data := by
    obtain ⟨_, _, rfl⟩ := map_eq_ok.mp checked
    rfl
  have looked {parent : String} {above : Folder} (named : form_data.parent_id = some parent)
      (there : db.folder.get? parent = some above) :
      (form_data.parent_id.filter (fun parent_id => decide (parent_id ≠ ""))).bind
        (get_folder_by_id db.folder) = some (parent, above) := by
    have filled : parent ≠ "" := by
      rintro rfl
      exact db.named (Dict.mem_keys_of_get? there)
    rw [named, Option.filter_some, if_pos (decide_eq_true filled), Option.bind_some,
      get_folder_by_id, there]
    rfl
  unfold create_folder at done
  split at done
  · cases done
  split at done
  · cases done
  split at done
  · rename_i target found
    have owned : ∀ parent above, form_data.parent_id = some parent →
        db.folder.get? parent = some above → target.2.user_id = above.user_id := by
      intro parent above named there
      cases (looked named there).symm.trans found
      rfl
    split at done
    · unfold createShared at done
      split at done
      · cases done
      · cases done
      · exact ⟨_, inserted done, owned⟩
    · rename_i own
      rw [not_not] at own
      exact ⟨_, inserted done, own ▸ owned⟩
  · rename_i nowhere
    refine ⟨_, inserted done, fun parent above named there => ?_⟩
    cases (looked named there).symm.trans nowhere

theorem delete_folder_within
    (done : delete_folder_by_id fuel db user_id role id answers = .ok next) :
    Within next.folder db.folder := by
  unfold delete_folder_by_id at done
  split at done
  · cases done
  split at done
  · cases done
  split at done
  · cases done
  unfold deleteOwned at done
  split at done
  · cases done
  split at done
  · cases done
  split at done
  · cases done
  · rename_i deleted found
    obtain rfl := Except.ok.inj done
    exact delete_within found

theorem move_moved {parent_id : Option String}
    (done : update_folder_parent_id_by_id ilike db user_id id parent_id answers = .ok next) :
    next = setParent db id parent_id ∧ ∃ row, db.folder.get? id = some row ∧ row.user_id = user_id := by
  unfold update_folder_parent_id_by_id at done
  split at done
  · cases done
  split at done
  · cases done
  · rename_i found owned
    split at done
    · cases done
    · obtain ⟨stored, own⟩ := Option.filter_eq_some_iff.mp owned
      obtain ⟨row, there, rfl⟩ := Option.map_eq_some_iff.mp stored
      exact ⟨(Except.ok.inj done).symm, row, there, of_decide_eq_true own⟩

end

theorem create_acyclic {ilike : String → String → Bool} {fuel : Nat} {db next : FolderDatabase}
    (acyclic : Acyclic db.folder) {user_id role : String} {form_data : FolderForm}
    {id : GeneratedId} {answers : Answers}
    (new : Generated db (.create user_id role form_data id answers))
    (done : create_folder ilike fuel db user_id role form_data id answers = .ok next) :
    Acyclic next.folder := by
  obtain ⟨_, unnamed, apart⟩ := new
  obtain ⟨owner, rfl, _⟩ := create_inserted done
  exact insert_acyclic acyclic unnamed owner apart

theorem setParent_acyclic_iff {db : FolderDatabase} (acyclic : Acyclic db.folder) {id : String}
    (stored : id ∈ db.folder.keys) (parent_id : Option String) :
    Acyclic (setParent db id parent_id).folder ↔ ∀ parent, parent_id = some parent →
      ¬ Relation.ReflTransGen (links db.folder).Edge parent id := by
  obtain ⟨row, found⟩ := Dict.exists_of_mem_keys stored
  refine ParentLinks.Acyclic.reparent_iff ?_ ?_ acyclic
  · intro child parent different
    rw [edge_iff, edge_iff, setParent, Dict.get?_modify, if_neg (Ne.symm different)]
  · intro parent
    rw [edge_iff, setParent, Dict.get?_modify, if_pos rfl, found, Option.map_some]
    simp

theorem move_acyclic_iff {ilike : String → String → Bool} {fuel : Nat} {db : FolderDatabase}
    (acyclic : Acyclic db.folder) (user_id id : String) (parent_id : Option String)
    (answers : Answers) :
    Acyclic (apply ilike fuel db (.move user_id id parent_id answers)).folder ↔
      MovesApart ilike db (.move user_id id parent_id answers) := by
  cases done : update_folder_parent_id_by_id ilike db user_id id parent_id answers with
  | error failure =>
    have handled_error : apply ilike fuel db (.move user_id id parent_id answers) = db :=
      apply_of_error done
    rw [handled_error, MovesApart, done]
    exact ⟨fun _ => nofun, fun _ => acyclic⟩
  | ok next =>
    have handled : apply ilike fuel db (.move user_id id parent_id answers) = next :=
      apply_of_ok done
    rw [handled, MovesApart, done]
    obtain ⟨rfl, row, stored, _⟩ := move_moved done
    rw [setParent_acyclic_iff acyclic (Dict.mem_keys_of_get? stored)]
    exact ⟨fun apart _ => apart, fun apart => apart rfl⟩

theorem apply_acyclic_iff {ilike : String → String → Bool} {fuel : Nat} {db : FolderDatabase}
    (acyclic : Acyclic db.folder) {request : Request} (new : Generated db request) :
    Acyclic (apply ilike fuel db request).folder ↔ MovesApart ilike db request := by
  cases request with
  | move user_id id parent_id answers => exact move_acyclic_iff acyclic user_id id parent_id answers
  | create user_id role form_data id answers =>
    refine iff_of_true ?_ trivial
    cases done : handle ilike fuel db (.create user_id role form_data id answers) with
    | error failure =>
      rw [apply_of_error done]
      exact acyclic
    | ok next =>
      rw [apply_of_ok done]
      exact create_acyclic acyclic new done
  | delete user_id role id answers =>
    refine iff_of_true ?_ trivial
    cases done : handle ilike fuel db (.delete user_id role id answers) with
    | error failure =>
      rw [apply_of_error done]
      exact acyclic
    | ok next =>
      rw [apply_of_ok done]
      exact (delete_folder_within done).acyclic acyclic
  | share access => exact iff_of_true acyclic trivial

section Run

variable (ilike : String → String → Bool) (fuel : Nat)

theorem acyclic_after {requests : List Request}
    (generated : Runs.Always (fun earlier => Generated (after ilike fuel earlier)) requests)
    (apart : Runs.Always (fun earlier => MovesApart ilike (after ilike fuel earlier)) requests) :
    Acyclic (after ilike fuel requests).folder := by
  induction requests using List.reverseRecOn with
  | nil =>
    intro id cycle
    obtain ⟨parent, edge, _⟩ := Relation.TransGen.head'_iff.mp cycle
    exact absurd edge.1 List.not_mem_nil
  | append_singleton requests request ih =>
    obtain ⟨before, new⟩ := Runs.always_append.mp generated
    obtain ⟨moved, last⟩ := Runs.always_append.mp apart
    rw [after_append]
    exact (apply_acyclic_iff (ih before moved) new).mpr last

/-- The table is a forest after every request of a run from the empty table exactly when no move
of the run puts a folder under itself or one below it. -/
theorem folders_stay_forest_iff (requests : List Request)
    (generated : Runs.Always (fun earlier => Generated (after ilike fuel earlier)) requests) :
    Runs.Always (fun earlier request => Forest (after ilike fuel (earlier ++ [request]))) requests ↔
      Runs.Always (fun earlier => MovesApart ilike (after ilike fuel earlier)) requests := by
  induction requests using List.reverseRecOn with
  | nil => exact iff_of_true (Runs.always_nil _) (Runs.always_nil _)
  | append_singleton requests request ih =>
    obtain ⟨before, new⟩ := Runs.always_append.mp generated
    rw [Runs.always_append, Runs.always_append, ih before, after_append]
    refine and_congr_right (fun apart => ?_)
    have acyclic := acyclic_after ilike fuel before apart
    have step : Acyclic (apply ilike fuel (after ilike fuel requests) request).folder ↔
        MovesApart ilike (after ilike fuel requests) request := apply_acyclic_iff acyclic new
    rw [← step]
    exact ⟨Forest.acyclic, forest_of_acyclic⟩

end Run

def sameName (stored name : String) : Bool := decide (stored = name)

def allowing : Answers := ⟨true, .ok (), false⟩

def nestedRequests : List Request :=
  [.create "ana" "user" ⟨"Work", none⟩ ⟨"A", by decide⟩ allowing,
    .create "ana" "user" ⟨"Home", none⟩ ⟨"B", by decide⟩ allowing,
    .move "ana" "B" (some "A") allowing]

theorem generated_create {db : FolderDatabase} {user_id role : String} {form_data : FolderForm}
    {id : GeneratedId} {answers : Answers}
    (rows : ∀ row ∈ db.folder.entries, row.1 ≠ id.1 ∧ row.2.parent_id ≠ some id.1)
    (apart : form_data.parent_id ≠ some id.1) :
    Generated db (.create user_id role form_data id answers) := by
  refine ⟨?_, ?_, apart⟩
  · intro named
    obtain ⟨row, found⟩ := Dict.exists_of_mem_keys named
    exact (rows _ (Dict.mem_entries_iff.mpr found)).1 rfl
  · intro other row found
    exact (rows _ (Dict.mem_entries_iff.mpr found)).2

theorem nestedRequests_generated :
    Runs.Always (fun earlier => Generated (after sameName 3 earlier)) nestedRequests := by
  simp only [nestedRequests, Runs.always_cons, Runs.always_nil, and_true]
  exact ⟨generated_create (by decide) (by decide), generated_create (by decide) (by decide), trivial⟩

def loopRequests : List Request :=
  [.create "ana" "user" ⟨"Work", none⟩ ⟨"A", by decide⟩ allowing,
    .move "ana" "A" (some "A") allowing]

theorem loopRequests_generated :
    Runs.Always (fun earlier => Generated (after sameName 3 earlier)) loopRequests := by
  simp only [loopRequests, Runs.always_cons, Runs.always_nil, and_true]
  exact ⟨generated_create (by decide) (by decide), trivial⟩

theorem subtreeLoop_own_child {folder : Dict String Folder} {found : FolderModel} {user_id : String}
    (own : get_folders_by_parent_id_and_user_id folder (some found.1) user_id = [found]) :
    ∀ fuel folder_ids, subtreeLoop folder user_id fuel [found] folder_ids = none := by
  intro fuel
  induction fuel with
  | zero => exact fun _ => rfl
  | succ fuel ih => intro folder_ids; simp [subtreeLoop, own, ih]

/-- After a folder is moved under itself, the ids of its subtree are never found. -/
theorem loopRequests_not_forest :
    Runs.Always (fun earlier => Generated (after sameName 3 earlier)) loopRequests ∧
      ¬ Acyclic (after sameName 3 loopRequests).folder ∧
        ∀ fuel, get_folder_ids_by_id_and_user_id_in_subtree (after sameName 3 loopRequests).folder
          fuel "A" "ana" = none := by
  refine ⟨loopRequests_generated, ?_, ?_⟩
  · intro acyclic
    have edge : (links (after sameName 3 loopRequests).folder).Edge "A" "A" :=
      edge_iff.mpr ⟨⟨some "A", "ana", "Work"⟩, by decide, rfl⟩
    exact acyclic "A" (Relation.TransGen.single edge)
  · intro fuel
    have own : get_folders_by_parent_id_and_user_id (after sameName 3 loopRequests).folder (some "A")
        "ana" = [("A", ⟨some "A", "ana", "Work"⟩)] := by decide
    exact subtreeLoop_own_child own fuel ["A"]

/-- A requests' run whose only move goes to a folder beside. -/
theorem nestedRequests_forest :
    Runs.Always (fun earlier request => Forest (after sameName 3 (earlier ++ [request])))
      nestedRequests := by
  refine (folders_stay_forest_iff sameName 3 nestedRequests nestedRequests_generated).mpr ?_
  simp only [nestedRequests, Runs.always_cons, Runs.always_nil, and_true]
  refine ⟨trivial, trivial, ?_⟩
  intro _ parent named under
  obtain rfl := Option.some.inj named
  rcases Relation.ReflTransGen.cases_head_iff.mp under with same | ⟨above, edge, _⟩
  · exact absurd same (by decide)
  · obtain ⟨row, found, parent⟩ := edge_iff.mp edge
    have stored : row = ⟨none, "ana", "Work"⟩ := Option.some.inj (found.symm.trans (by decide))
    rw [stored] at parent
    cases parent

end OpenWebui.Folders
