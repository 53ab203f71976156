import Mathlib.Algebra.BigOperators.Group.Finset.Basic
import Mathlib.Algebra.GroupWithZero.Nat
import OpenWebui.Base.Chain
import OpenWebui.Folders.Table

/-! The unread counts of the folders: what a folder has itself is also counted at every folder
above it, along parent links that may be broken or run in circles. -/

namespace OpenWebui.Folders

open Relation

def get_folders_by_user_id (folder : Dict String Folder) (user_id : String) : Dict String Folder :=
  folder.filterMapValue (fun row => if row.user_id = user_id then some row else none)

/-- `unread_counts[id] += unread_count`, when the id is a key. -/
def addUnread (unread_count : Nat) (unread_counts : Dict String Nat) (id : String) :
    Dict String Nat :=
  if id ∈ unread_counts.keys then unread_counts.modify id (fun count => count + unread_count)
  else unread_counts

def countUp (parent_by_id : Dict String (Option String)) (unread_count : Nat) :
    Nat → Option String → List String → Dict String Nat → Option (Dict String Nat)
  | 0, _, _, _ => none
  | fuel + 1, current_id, seen, unread_counts =>
    match current_id with
    | none => some unread_counts
    | some id =>
      if id = "" ∨ id ∈ seen then some unread_counts
      else countUp parent_by_id unread_count fuel ((parent_by_id.get? id).join) (id :: seen)
        (addUnread unread_count unread_counts id)

def get_folder_unread_counts (fuel : Nat) (folder : Dict String Folder) (user_id : String)
    (direct_unread_counts : Dict String Nat) : Option (Dict String Nat) :=
  let folders := get_folders_by_user_id folder user_id
  let parent_by_id := folders.mapValue (fun _ row => row.parent_id)
  direct_unread_counts.entries.foldlM
    (fun unread_counts unread => countUp parent_by_id unread.2 fuel (some unread.1) [] unread_counts)
    (parent_by_id.mapValue (fun _ _ => 0))

section Walk

variable (parent_by_id : Dict String (Option String))

def namedParent (id : String) : Option String :=
  ((parent_by_id.get? id).join).filter (fun parent_id => decide (parent_id ≠ ""))

variable {parent_by_id} {unread_count : Nat}

theorem get?_addUnread (unread_counts : Dict String Nat) (id query : String) :
    (addUnread unread_count unread_counts id).get? query =
      if id = query then (unread_counts.get? query).map (fun count => count + unread_count)
      else unread_counts.get? query := by
  unfold addUnread
  split
  · exact Dict.get?_modify ..
  · rename_i absent
    split
    · rename_i same
      subst same
      rw [Dict.get?_eq_none.mpr absent]
      rfl
    · rfl

theorem get?_foldl_addUnread {visited : List String} (distinct : visited.Nodup)
    (unread_counts : Dict String Nat) (query : String) :
    (visited.foldl (addUnread unread_count) unread_counts).get? query =
      if query ∈ visited then (unread_counts.get? query).map (fun count => count + unread_count)
      else unread_counts.get? query := by
  induction visited generalizing unread_counts with
  | nil => rfl
  | cons id rest ih =>
    obtain ⟨fresh, later⟩ := List.nodup_cons.mp distinct
    rw [List.foldl_cons, ih later, get?_addUnread]
    by_cases same : id = query
    · subst same
      simp [fresh]
    · simp [same, Ne.symm same]

theorem countUp_eq (fuel : Nat) (current_id : Option String) (seen : List String)
    (unread_counts : Dict String Nat) :
    countUp parent_by_id unread_count fuel current_id seen unread_counts =
      (chain (namedParent parent_by_id) fuel
        (current_id.filter (fun id => decide (id ≠ ""))) seen).map
          (fun visited => visited.foldl (addUnread unread_count) unread_counts) := by
  induction fuel generalizing current_id seen unread_counts with
  | zero => rfl
  | succ fuel ih =>
    cases current_id with
    | none => rfl
    | some id =>
      by_cases empty : id = ""
      · subst empty
        rfl
      have kept : (some id).filter (fun id => decide (id ≠ "")) = some id := by simp [empty]
      rw [kept, countUp]
      by_cases again : id ∈ seen
      · rw [chain_seen again, if_pos (Or.inr again)]
        rfl
      · rw [chain_fresh again, if_neg (not_or.mpr ⟨empty, again⟩), ih, Option.map_map]
        rfl

end Walk

section Counts

variable {folder : Dict String Folder} {user_id : String}

/-- A folder of the user has the other as its parent. -/
def ParentOf (folder : Dict String Folder) (user_id child parent : String) : Prop :=
  ∃ row, folder.get? child = some row ∧ row.user_id = user_id ∧ row.parent_id = some parent

theorem get_folders_by_user_id_get? {id : String} {row : Folder} :
    (get_folders_by_user_id folder user_id).get? id = some row ↔
      folder.get? id = some row ∧ row.user_id = user_id := by
  rw [get_folders_by_user_id, Dict.get?_filterMapValue, Option.bind_eq_some_iff]
  constructor
  · rintro ⟨found, stored, kept⟩
    split at kept
    · rename_i own
      obtain rfl := Option.some.inj kept
      exact ⟨stored, own⟩
    · cases kept
  · rintro ⟨stored, own⟩
    exact ⟨row, stored, if_pos own⟩

theorem linked_iff (child parent : String) :
    Linked (namedParent ((get_folders_by_user_id folder user_id).mapValue
        (fun _ row => row.parent_id))) child parent ↔
      ParentOf folder user_id child parent ∧ parent ≠ "" := by
  rw [Linked, namedParent, Option.filter_eq_some_iff, Dict.get?_mapValue, decide_eq_true_eq]
  refine and_congr_left' ?_
  rw [Option.join_eq_some_iff, Option.map_eq_some_iff]
  constructor
  · rintro ⟨row, stored, parent_id⟩
    obtain ⟨found, own⟩ := get_folders_by_user_id_get?.mp stored
    exact ⟨row, found, own, parent_id⟩
  · rintro ⟨row, found, own, parent_id⟩
    exact ⟨row, get_folders_by_user_id_get?.mpr ⟨found, own⟩, parent_id⟩

/-- The folders of the user below a folder, itself included. -/
def Below (folder : Dict String Folder) (user_id descendant id : String) : Prop :=
  ReflTransGen (ParentOf folder user_id) descendant id

theorem below_iff_linked (named : "" ∉ folder.keys) {descendant id : String} (own : id ≠ "") :
    ReflTransGen (Linked (namedParent ((get_folders_by_user_id folder user_id).mapValue
        (fun _ row => row.parent_id)))) descendant id ↔ Below folder user_id descendant id := by
  constructor
  · intro path
    exact ReflTransGen.mono (fun child parent link => ((linked_iff child parent).mp link).1)
      descendant id path
  · intro path
    induction path using ReflTransGen.head_induction_on with
    | refl => exact ReflTransGen.refl
    | @head child parent link rest ih =>
      refine ReflTransGen.head ((linked_iff child parent).mpr ⟨link, ?_⟩) ih
      -- A parent on the way has a row of its own, and no row has an empty id.
      rcases ReflTransGen.cases_head rest with same | ⟨above, ⟨row, stored, _⟩, _⟩
      · exact same ▸ own
      · exact fun empty => named (empty ▸ Dict.mem_keys_of_get? stored)

open Classical in
noncomputable def subtreeTotal (folder : Dict String Folder) (user_id : String)
    (direct_unread_counts : Dict String Nat) (id : String) : Nat :=
  ∑ descendant ∈ (get_folders_by_user_id folder user_id).keys.toFinset with
    Below folder user_id descendant id, (direct_unread_counts.get? descendant).getD 0

theorem mem_of_below {descendant id : String} (below : Below folder user_id descendant id)
    (member : id ∈ (get_folders_by_user_id folder user_id).keys) :
    descendant ∈ (get_folders_by_user_id folder user_id).keys := by
  rcases ReflTransGen.cases_head below with same | ⟨parent, ⟨row, stored, own, _⟩, _⟩
  · exact same ▸ member
  · exact Dict.mem_keys_of_get? (get_folders_by_user_id_get?.mpr ⟨stored, own⟩)

open Classical in
theorem sum_entries_eq (direct_unread_counts : Dict String Nat) {id : String}
    (member : id ∈ (get_folders_by_user_id folder user_id).keys) :
    (direct_unread_counts.entries.map (fun unread =>
        if Below folder user_id unread.1 id then unread.2 else 0)).sum =
      subtreeTotal folder user_id direct_unread_counts id := by
  let term (descendant : String) : Nat :=
    if Below folder user_id descendant id then (direct_unread_counts.get? descendant).getD 0 else 0
  let folders := (get_folders_by_user_id folder user_id).keys
  have counted : (direct_unread_counts.entries.map (fun unread =>
      if Below folder user_id unread.1 id then unread.2 else 0)) =
        direct_unread_counts.keys.map term := by
    rw [Dict.keys, Assoc.keys, List.map_map]
    refine List.map_congr_left (fun unread inside => ?_)
    simp only [term, Function.comp_apply, Dict.mem_entries_iff.mp inside, Option.getD_some]
  have one : ∑ descendant ∈ direct_unread_counts.keys.toFinset, term descendant =
      ∑ descendant ∈ direct_unread_counts.keys.toFinset ∪ folders.toFinset, term descendant := by
    refine Finset.sum_subset Finset.subset_union_left (fun descendant _ outside => ?_)
    have unlisted := Dict.get?_eq_none.mpr (fun listed => outside (List.mem_toFinset.mpr listed))
    simp only [term, unlisted, Option.getD_none, ite_self]
  have other : ∑ descendant ∈ folders.toFinset, term descendant =
      ∑ descendant ∈ direct_unread_counts.keys.toFinset ∪ folders.toFinset, term descendant := by
    refine Finset.sum_subset Finset.subset_union_right (fun descendant _ outside => ?_)
    exact if_neg (fun below => outside (List.mem_toFinset.mpr (mem_of_below below member)))
  rw [counted, ← List.sum_toFinset term direct_unread_counts.keys_nodup, one, ← other, subtreeTotal,
    Finset.sum_filter]

open Classical in
theorem countUp_below (named : "" ∉ folder.keys) {fuel : Nat}
    (enough : folder.keys.length + 2 ≤ fuel) (unread : String × Nat)
    (unread_counts : Dict String Nat) :
    ∃ counted, countUp ((get_folders_by_user_id folder user_id).mapValue
        (fun _ row => row.parent_id)) unread.2 fuel (some unread.1) [] unread_counts =
          some counted ∧
      ∀ id, (id = "" → unread_counts.get? id = none) →
        counted.get? id = (unread_counts.get? id).map (fun count =>
          count + if Below folder user_id unread.1 id then unread.2 else 0) := by
  have inside : ∀ child parent, namedParent ((get_folders_by_user_id folder user_id).mapValue
      (fun _ row => row.parent_id)) child = some parent → child ∈ folder.keys := by
    intro child parent link
    obtain ⟨row, stored, _⟩ := ((linked_iff child parent).mp link).1
    exact Dict.mem_keys_of_get? stored
  obtain ⟨visited, walked⟩ := chain_stops inside enough
    ((some unread.1).filter (fun id => decide (id ≠ "")))
  rw [countUp_eq, walked]
  refine ⟨_, rfl, fun id unnamed => ?_⟩
  rw [get?_foldl_addUnread (chain_nodup walked).1]
  by_cases own : id = ""
  · rw [unnamed own]
    exact ite_self none
  have reached : id ∈ visited ↔ Below folder user_id unread.1 id := by
    by_cases empty : unread.1 = ""
    · have nothing : visited = [] := by
        rw [empty] at walked
        rcases chain_cases walked with ⟨nothing, _⟩ | ⟨_, _, _, _, begins, _⟩
        · exact nothing
        · cases begins
      rw [nothing, empty]
      refine iff_of_false List.not_mem_nil (fun below => ?_)
      rcases ReflTransGen.cases_head below with same | ⟨parent, ⟨row, stored, _⟩, _⟩
      · exact own same.symm
      · exact named (Dict.mem_keys_of_get? stored)
    · have kept : (some unread.1).filter (fun id => decide (id ≠ "")) = some unread.1 := by
        simp [empty]
      rw [kept] at walked
      rw [mem_chain_iff walked, below_iff_linked named own]
  by_cases below : Below folder user_id unread.1 id
  · rw [if_pos (reached.mpr below), if_pos below]
  · rw [if_neg (fun member => below (reached.mp member)), if_neg below]
    simp

open Classical in
theorem counts_below (named : "" ∉ folder.keys) {fuel : Nat}
    (enough : folder.keys.length + 2 ≤ fuel) (unread : List (String × Nat))
    (unread_counts : Dict String Nat) :
    ∃ counted, unread.foldlM (fun unread_counts unread =>
        countUp ((get_folders_by_user_id folder user_id).mapValue (fun _ row => row.parent_id))
          unread.2 fuel (some unread.1) [] unread_counts) unread_counts = some counted ∧
      ∀ id, (id = "" → unread_counts.get? id = none) →
        counted.get? id = (unread_counts.get? id).map (fun count =>
          count + (unread.map (fun unread =>
            if Below folder user_id unread.1 id then unread.2 else 0)).sum) := by
  induction unread generalizing unread_counts with
  | nil => exact ⟨unread_counts, rfl, fun id _ => by simp⟩
  | cons first rest ih =>
    obtain ⟨next, round, added⟩ := @countUp_below folder user_id named fuel enough first unread_counts
    obtain ⟨counted, run, total⟩ := ih next
    refine ⟨counted, by rw [List.foldlM_cons, round]; exact run, fun id unnamed => ?_⟩
    have later : id = "" → next.get? id = none := by
      intro empty
      rw [added id unnamed, unnamed empty]
      rfl
    rw [total id later, added id unnamed, Option.map_map]
    congr 1
    funext count
    simp [Nat.add_assoc]

end Counts

/-- The counts come out however the parent links run: each folder of the user, and nothing
else, has the sum over the folders below it. -/
theorem get_folder_unread_counts_exact (db : FolderDatabase) (user_id : String)
    (direct_unread_counts : Dict String Nat) (fuel : Nat)
    (enough : db.folder.keys.length + 2 ≤ fuel) :
    ∃ unread_counts,
      get_folder_unread_counts fuel db.folder user_id direct_unread_counts = some unread_counts ∧
      ∀ id, unread_counts.get? id =
        if id ∈ (get_folders_by_user_id db.folder user_id).keys then
          some (subtreeTotal db.folder user_id direct_unread_counts id)
        else none := by
  obtain ⟨unread_counts, run, total⟩ := @counts_below db.folder user_id db.named fuel enough
    direct_unread_counts.entries (((get_folders_by_user_id db.folder user_id).mapValue
      (fun _ row => row.parent_id)).mapValue (fun _ _ => 0))
  refine ⟨unread_counts, run, fun id => ?_⟩
  simp only [Dict.get?_mapValue, Option.map_map] at total
  by_cases member : id ∈ (get_folders_by_user_id db.folder user_id).keys
  · obtain ⟨row, found⟩ := Dict.exists_of_mem_keys member
    have own : id ≠ "" := by
      intro empty
      exact db.named (empty ▸ Dict.mem_keys_of_get? (get_folders_by_user_id_get?.mp found).1)
    rw [total id (fun empty => absurd empty own), found, if_pos member,
      ← sum_entries_eq direct_unread_counts member]
    simp
  · have unlisted := Dict.get?_eq_none.mpr member
    rw [total id (fun _ => by rw [unlisted]; rfl), unlisted, if_neg member]
    rfl

def circling : FolderDatabase where
  access_grant := []
  group := []
  group_member := []
  user := []
  folder := Dict.ofEntries
    [("a", ⟨some "b", "ann", "A"⟩), ("b", ⟨some "a", "ann", "B"⟩), ("c", ⟨some "b", "ann", "C"⟩),
      ("d", ⟨some "gone", "ann", "D"⟩)]
  named := by decide

/-- Both folders of the circle count each other's chats, and those of the child, once. -/
theorem circling_counts :
    (∃ unread_counts,
      get_folder_unread_counts 6 circling.folder "ann"
          (Dict.ofEntries [("a", 1), ("b", 2), ("c", 4), ("d", 8)]) = some unread_counts ∧
      ∀ id, unread_counts.get? id =
        if id ∈ (get_folders_by_user_id circling.folder "ann").keys then
          some (subtreeTotal circling.folder "ann"
            (Dict.ofEntries [("a", 1), ("b", 2), ("c", 4), ("d", 8)]) id)
        else none) ∧
      (get_folder_unread_counts 6 circling.folder "ann"
          (Dict.ofEntries [("a", 1), ("b", 2), ("c", 4), ("d", 8)])).map Dict.entries =
        some [("a", 7), ("b", 7), ("c", 4), ("d", 8)] :=
  ⟨get_folder_unread_counts_exact circling "ann" _ 6 (by decide), by decide +kernel⟩

end OpenWebui.Folders
