import OpenWebui.AccessGrants.Deciders
import OpenWebui.Base.Dict
import OpenWebui.Base.ParentLinks

/-! The table of folders, the walks over its parent links, and access inherited from the folders
above. -/

namespace OpenWebui.Folders

open AccessGrants

structure Folder where
  parent_id : Option String
  user_id : String
  name : String
  deriving DecidableEq

/-- The folders by their ids, which are generated and never empty, beside the grants. -/
structure FolderDatabase extends AccessGrants.Database where
  folder : Dict String Folder
  named : "" ∉ folder.keys

abbrev FolderModel := String × Folder

section Queries

variable (folder : Dict String Folder)

def get_folder_by_id (id : String) : Option FolderModel := (folder.get? id).map (fun row => (id, row))

def get_folder_by_id_and_user_id (id user_id : String) : Option FolderModel :=
  (get_folder_by_id folder id).filter (fun found => decide (found.2.user_id = user_id))

def get_folders_by_parent_id_and_user_id (parent_id : Option String) (user_id : String) :
    List FolderModel :=
  folder.entries.filter (fun row =>
    decide (row.2.parent_id = parent_id ∧ row.2.user_id = user_id))

/-- The database compares names with `ilike`. -/
def get_folder_by_parent_id_and_user_id_and_name (ilike : String → String → Bool)
    (parent_id : Option String) (user_id name : String) : Option FolderModel :=
  (get_folders_by_parent_id_and_user_id folder parent_id user_id).find? (fun row =>
    ilike row.2.name name)

def getChildren (user_id : String) : Nat → String → Option (List FolderModel)
  | 0, _ => none
  | fuel + 1, id =>
    (get_folders_by_parent_id_and_user_id folder (some id) user_id).foldlM (fun folders child =>
      (getChildren user_id fuel child.1).map (fun deeper => folders ++ deeper ++ [child])) []

/-- The inner `none` is the answer for a folder that the user does not own. -/
def get_children_folders_by_id_and_user_id (fuel : Nat) (id user_id : String) :
    Option (Option (List FolderModel)) :=
  match get_folder_by_id_and_user_id folder id user_id with
  | none => some none
  | some found => (getChildren folder user_id fuel found.1).map some

def subtreeLoop (user_id : String) : Nat → List FolderModel → List String → Option (List String)
  | _, [], folder_ids => some folder_ids
  | 0, _ :: _, _ => none
  | fuel + 1, current_folder :: rest, folder_ids =>
    let children := get_folders_by_parent_id_and_user_id folder (some current_folder.1) user_id
    subtreeLoop user_id fuel (children.reverse ++ rest)
      (folder_ids ++ children.map Prod.fst)

def get_folder_ids_by_id_and_user_id_in_subtree (fuel : Nat) (id user_id : String) :
    Option (List String) :=
  match get_folder_by_id_and_user_id folder id user_id with
  | none => some []
  | some found => subtreeLoop folder user_id fuel [found] [found.1]

end Queries

/-- The children of a folder are deleted, each after its own. A child is there when its turn
comes, since a row has one parent. -/
def deleteChildren (user_id : String) : Nat → Dict String Folder → String →
    Option (Dict String Folder × List String)
  | 0, _, _ => none
  | fuel + 1, folder, id =>
    (get_folders_by_parent_id_and_user_id folder (some id) user_id).foldlM
      (fun deleted child =>
        (deleteChildren user_id fuel deleted.1 child.1).map (fun deeper =>
          (deeper.1.erase child.1, deleted.2 ++ deeper.2 ++ [child.1]))) (folder, [])

def delete_folder_by_id_and_user_id (fuel : Nat) (folder : Dict String Folder)
    (id user_id : String) : Option (Dict String Folder × List String) :=
  match get_folder_by_id_and_user_id folder id user_id with
  | none => some (folder, [])
  | some found => (deleteChildren user_id fuel folder found.1).map (fun deleted =>
      (deleted.1.erase found.1, found.1 :: deleted.2))

def parentFolder (folder : Dict String Folder) (child : Folder) : Option FolderModel :=
  (child.parent_id.filter (fun parent_id => decide (parent_id ≠ ""))).bind
    (get_folder_by_id folder)

def has_folder_access (db : FolderDatabase) (user_id permission : String) :
    Nat → FolderModel → Option Bool
  | 0, _ => none
  | fuel + 1, folder =>
    if folder.2.user_id = user_id then some true
    else if has_access db.toDatabase user_id "folder" folder.1 permission none then some true
    else
      match parentFolder db.folder folder.2 with
      | none => some false
      | some parent => has_folder_access db user_id permission fuel parent

def links (folder : Dict String Folder) : ParentLinks String where
  nodes := folder.keys
  parent id := (folder.get? id).bind (fun row => row.parent_id)
  children id := (folder.entries.filter (fun row => decide (row.2.parent_id = some id))).map Prod.fst

/-- No folder is its own ancestor. -/
def Acyclic (folder : Dict String Folder) : Prop := (links folder).Acyclic

theorem edge_iff {folder : Dict String Folder} {child parent : String} :
    (links folder).Edge child parent ↔
      ∃ row, folder.get? child = some row ∧ row.parent_id = some parent := by
  constructor
  · rintro ⟨_, named⟩
    obtain ⟨row, found, same⟩ := Option.bind_eq_some_iff.mp named
    exact ⟨row, found, same⟩
  · rintro ⟨row, found, same⟩
    exact ⟨Dict.mem_keys_of_get? found, Option.bind_eq_some_iff.mpr ⟨row, found, same⟩⟩

theorem mem_children {folder : Dict String Folder} {id user_id : String} {child : FolderModel}
    (member : child ∈ get_folders_by_parent_id_and_user_id folder (some id) user_id) :
    folder.get? child.1 = some child.2 ∧ child.2.parent_id = some id ∧
      child.2.user_id = user_id := by
  obtain ⟨stored, same⟩ := List.mem_filter.mp member
  rw [decide_eq_true_iff] at same
  exact ⟨Dict.mem_entries_iff.mp stored, same⟩

theorem mem_children_of {folder : Dict String Folder} {id user_id : String} {child : FolderModel}
    (stored : folder.get? child.1 = some child.2) (parent : child.2.parent_id = some id)
    (owner : child.2.user_id = user_id) :
    child ∈ get_folders_by_parent_id_and_user_id folder (some id) user_id :=
  List.mem_filter.mpr ⟨Dict.mem_entries_iff.mpr stored, decide_eq_true ⟨parent, owner⟩⟩

theorem child_edge {folder : Dict String Folder} {id user_id : String} {child : FolderModel}
    (member : child ∈ get_folders_by_parent_id_and_user_id folder (some id) user_id) :
    (links folder).Edge child.1 id := by
  obtain ⟨stored, parent, _⟩ := mem_children member
  exact edge_iff.mpr ⟨child.2, stored, parent⟩

theorem parent_edge {folder : Dict String Folder} {child parent : FolderModel}
    (stored : folder.get? child.1 = some child.2)
    (found : parentFolder folder child.2 = some parent) :
    (links folder).Edge child.1 parent.1 ∧ folder.get? parent.1 = some parent.2 := by
  obtain ⟨id, named, up⟩ := Option.bind_eq_some_iff.mp found
  obtain ⟨row, there, rfl⟩ := Option.map_eq_some_iff.mp up
  exact ⟨edge_iff.mpr ⟨child.2, stored, (Option.filter_eq_some_iff.mp named).1⟩, there⟩

theorem foldlM_some {α β : Type} {step : β → α → Option β} (holds : β → Prop) {items : List α}
    (each : ∀ item ∈ items, ∀ state, holds state → ∃ next, step state item = some next ∧ holds next)
    {start : β} (starts : holds start) :
    ∃ last, items.foldlM step start = some last ∧ holds last := by
  induction items generalizing start with
  | nil => exact ⟨start, rfl, starts⟩
  | cons item rest ih =>
    obtain ⟨next, done, kept⟩ := each item (by simp) start starts
    obtain ⟨last, later, ends⟩ := ih (fun other member => each other (by simp [member])) kept
    exact ⟨last, by simp [List.foldlM_cons, done, later], ends⟩

theorem foldlM_keeps {α β : Type} {step : β → α → Option β} (holds : β → Prop) {items : List α}
    (each : ∀ item ∈ items, ∀ state next, step state item = some next → holds state → holds next)
    {start last : β} (done : items.foldlM step start = some last) (starts : holds start) :
    holds last := by
  induction items generalizing start with
  | nil =>
    obtain rfl := Option.some.inj done
    exact starts
  | cons item rest ih =>
    rw [List.foldlM_cons] at done
    obtain ⟨next, first, later⟩ := Option.bind_eq_some_iff.mp done
    exact ih (fun other member => each other (by simp [member])) later
      (each item (by simp) start next first starts)

variable {folder : Dict String Folder}

theorem getChildren_stops (acyclic : Acyclic folder) (user_id : String) :
    ∀ (fuel : Nat) (id : String), (links folder).below id < fuel →
      ∃ folders, getChildren folder user_id fuel id = some folders := by
  intro fuel
  induction fuel with
  | zero => intro id enough; exact absurd enough (Nat.not_lt_zero _)
  | succ fuel ih =>
    intro id enough
    unfold getChildren
    have each : ∀ child ∈ get_folders_by_parent_id_and_user_id folder (some id) user_id,
        ∀ folders : List FolderModel, True →
          ∃ next, (getChildren folder user_id fuel child.1).map (fun deeper =>
            folders ++ deeper ++ [child]) = some next ∧ True := by
      intro child member folders _
      have lower := ParentLinks.Acyclic.below_lt acyclic (child_edge member)
      obtain ⟨deeper, found⟩ := ih child.1 (by omega)
      exact ⟨_, by rw [found]; rfl, trivial⟩
    obtain ⟨folders, done, _⟩ := foldlM_some (fun _ => True) each trivial
    exact ⟨folders, done⟩

theorem subtreeLoop_pops (acyclic : Acyclic folder) (user_id : String) :
    ∀ (rank : Nat) (stack : List FolderModel),
      (∀ found ∈ stack, (links folder).below found.1 < rank) →
        ∃ steps extra, ∀ fuel rest folder_ids,
          subtreeLoop folder user_id (steps + fuel) (stack ++ rest) folder_ids =
            subtreeLoop folder user_id fuel rest (folder_ids ++ extra) := by
  intro rank
  induction rank with
  | zero =>
    intro stack ranked
    cases stack with
    | nil => exact ⟨0, [], fun fuel rest folder_ids => by simp⟩
    | cons found _ => exact absurd (ranked found (by simp)) (Nat.not_lt_zero _)
  | succ rank deeper =>
    intro stack
    induction stack with
    | nil => intro _; exact ⟨0, [], fun fuel rest folder_ids => by simp⟩
    | cons found later ih =>
      intro ranked
      let children := get_folders_by_parent_id_and_user_id folder (some found.1) user_id
      have lower : ∀ child ∈ children.reverse, (links folder).below child.1 < rank := by
        intro child member
        have := ParentLinks.Acyclic.below_lt acyclic (child_edge (List.mem_reverse.mp member))
        have := ranked found (by simp)
        omega
      obtain ⟨first, visited, pops⟩ := deeper children.reverse lower
      obtain ⟨second, others, rest_pops⟩ := ih (fun other member => ranked other (by simp [member]))
      refine ⟨first + second + 1, children.map Prod.fst ++ visited ++ others, ?_⟩
      intro fuel rest folder_ids
      have split : first + second + 1 + fuel = (first + (second + fuel)) + 1 := by omega
      rw [split, List.cons_append, subtreeLoop, pops, rest_pops]
      simp [children, List.append_assoc]

theorem subtree_stops (acyclic : Acyclic folder) (id user_id : String) :
    ∃ fuel folder_ids,
      get_folder_ids_by_id_and_user_id_in_subtree folder fuel id user_id = some folder_ids := by
  unfold get_folder_ids_by_id_and_user_id_in_subtree
  cases get_folder_by_id_and_user_id folder id user_id with
  | none => exact ⟨0, [], rfl⟩
  | some found =>
    obtain ⟨steps, extra, pops⟩ := subtreeLoop_pops acyclic user_id
      ((links folder).below found.1 + 1) [found] (by simp)
    refine ⟨steps + 0, [found.1] ++ extra, ?_⟩
    exact (pops 0 [] [found.1]).trans rfl

/-- Every row of the first table is one of the second. -/
def Within (first second : Dict String Folder) : Prop :=
  ∀ id row, first.get? id = some row → second.get? id = some row

theorem Within.refl (folder : Dict String Folder) : Within folder folder := fun _ _ => id

theorem Within.erase {first second : Dict String Folder} (within : Within first second)
    (id : String) : Within (first.erase id) second := by
  intro other row found
  rw [Dict.get?_erase] at found
  split at found
  · cases found
  · exact within other row found

theorem Within.edge {first second : Dict String Folder} (within : Within first second)
    {child parent : String} (edge : (links first).Edge child parent) :
    (links second).Edge child parent := by
  obtain ⟨row, found, named⟩ := edge_iff.mp edge
  exact edge_iff.mpr ⟨row, within child row found, named⟩

theorem Within.acyclic {first second : Dict String Folder} (within : Within first second)
    (acyclic : Acyclic second) : Acyclic first :=
  acyclic.of_paths (fun _ _ edge => .single (within.edge edge))

theorem Within.trans {first second third : Dict String Folder} (one : Within first second)
    (two : Within second third) : Within first third :=
  fun id row found => two id row (one id row found)

theorem deleteChildren_within {user_id : String} : ∀ {fuel : Nat} {left : Dict String Folder}
    {id : String} {deleted : Dict String Folder × List String},
      deleteChildren user_id fuel left id = some deleted → Within deleted.1 left := by
  intro fuel
  induction fuel with
  | zero => intro left id deleted done; cases done
  | succ fuel ih =>
    intro left id deleted done
    refine foldlM_keeps (fun state : Dict String Folder × List String => Within state.1 left) ?_
      done (Within.refl left)
    intro child _ state next step kept
    obtain ⟨deeper, found, rfl⟩ := Option.map_eq_some_iff.mp step
    exact ((ih found).trans kept).erase child.1

theorem delete_within {fuel : Nat} {id user_id : String}
    {deleted : Dict String Folder × List String}
    (done : delete_folder_by_id_and_user_id fuel folder id user_id = some deleted) :
    Within deleted.1 folder := by
  unfold delete_folder_by_id_and_user_id at done
  split at done
  · obtain rfl := Option.some.inj done
    exact Within.refl folder
  · obtain ⟨deeper, found, rfl⟩ := Option.map_eq_some_iff.mp done
    exact (deleteChildren_within found).erase _

theorem deleteChildren_stops (acyclic : Acyclic folder) (user_id : String) :
    ∀ (fuel : Nat) (left : Dict String Folder) (id : String), Within left folder →
      (links folder).below id < fuel →
        ∃ deleted, deleteChildren user_id fuel left id = some deleted ∧ Within deleted.1 folder := by
  intro fuel
  induction fuel with
  | zero => intro left id _ enough; exact absurd enough (Nat.not_lt_zero _)
  | succ fuel ih =>
    intro left id within enough
    unfold deleteChildren
    refine foldlM_some (fun deleted : Dict String Folder × List String =>
      Within deleted.1 folder) ?_ within
    intro child member deleted kept
    have lower := ParentLinks.Acyclic.below_lt acyclic (within.edge (child_edge member))
    obtain ⟨deeper, found, smaller⟩ := ih deleted.1 child.1 kept (by omega)
    exact ⟨_, by rw [found]; rfl, smaller.erase child.1⟩

theorem has_folder_access_stops {db : FolderDatabase} (acyclic : Acyclic db.folder)
    (user_id permission : String) :
    ∀ (fuel : Nat) (found : FolderModel), db.folder.get? found.1 = some found.2 →
      (links db.folder).above found.1 < fuel →
        ∃ answer, has_folder_access db user_id permission fuel found = some answer := by
  intro fuel
  induction fuel with
  | zero => intro found _ enough; exact absurd enough (Nat.not_lt_zero _)
  | succ fuel ih =>
    intro found stored enough
    unfold has_folder_access
    split
    · exact ⟨true, rfl⟩
    split
    · exact ⟨true, rfl⟩
    cases up : parentFolder db.folder found.2 with
    | none => exact ⟨false, rfl⟩
    | some parent =>
      obtain ⟨edge, there⟩ := parent_edge stored up
      have higher := ParentLinks.Acyclic.above_lt acyclic edge (Dict.mem_keys_of_get? there)
      exact ih parent there (by omega)

/-- The four walks stop on every folder. -/
structure Stops (db : FolderDatabase) (id user_id permission : String) : Prop where
  has_folder_access : ∀ row, db.folder.get? id = some row →
    ∃ fuel answer, has_folder_access db user_id permission fuel (id, row) = some answer
  get_children : ∃ fuel folders,
    get_children_folders_by_id_and_user_id db.folder fuel id user_id = some folders
  subtree : ∃ fuel folder_ids,
    get_folder_ids_by_id_and_user_id_in_subtree db.folder fuel id user_id = some folder_ids
  delete : ∃ fuel deleted, delete_folder_by_id_and_user_id fuel db.folder id user_id = some deleted

theorem stops_of_acyclic {db : FolderDatabase} (acyclic : Acyclic db.folder)
    (id user_id permission : String) : Stops db id user_id permission where
  has_folder_access row stored :=
    ⟨_, has_folder_access_stops acyclic user_id permission _ (id, row) stored (Nat.lt_succ_self _)⟩
  get_children := by
    unfold get_children_folders_by_id_and_user_id
    cases get_folder_by_id_and_user_id db.folder id user_id with
    | none => exact ⟨0, none, rfl⟩
    | some found =>
      obtain ⟨folders, done⟩ := getChildren_stops acyclic user_id _ found.1 (Nat.lt_succ_self _)
      exact ⟨_, some folders, congrArg (Option.map some) done⟩
  subtree := subtree_stops acyclic id user_id
  delete := by
    unfold delete_folder_by_id_and_user_id
    cases get_folder_by_id_and_user_id db.folder id user_id with
    | none => exact ⟨0, _, rfl⟩
    | some found =>
      obtain ⟨deleted, done, _⟩ := deleteChildren_stops acyclic user_id _ db.folder found.1
        (Within.refl _) (Nat.lt_succ_self _)
      exact ⟨_, _, congrArg (Option.map _) done⟩

end OpenWebui.Folders
