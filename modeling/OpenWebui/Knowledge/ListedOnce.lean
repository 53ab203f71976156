import OpenWebui.Knowledge.Listing

/-! In well-formed tables whose directories have paths of their own, every file of a knowledge base
is listed in exactly one place. -/

namespace OpenWebui.Knowledge

open Relation

section Placed

variable {tables : Tables} {knowledge_id : String}

theorem walkDown_append (first second : List String) (current_parent : Option String) :
    walkDown tables knowledge_id (first ++ second) current_parent =
      (walkDown tables knowledge_id first current_parent).bind
        (walkDown tables knowledge_id second) := by
  induction first generalizing current_parent with
  | nil => rfl
  | cons part rest ih =>
    rw [List.cons_append, walkDown, walkDown]
    split
    · exact ih _
    · rfl

theorem filter_parent (wellFormed : WellFormed tables) (addressed : Addressed tables) {id : String}
    {row : KnowledgeDirectory} (found : tables.knowledge_directory.get? id = some row) :
    row.parent_id.filter (fun id => decide (id ≠ "")) = row.parent_id := by
  cases above : row.parent_id with
  | none => rfl
  | some parent_id =>
    have named : parent_id ≠ "" := by
      rintro rfl
      exact addressed.generated (wellFormed.parents id row found _ above).mem_keys
    rw [Option.filter_some, if_pos (decide_eq_true named)]

theorem walkDown_name (wellFormed : WellFormed tables) (addressed : Addressed tables) {id : String}
    {row : KnowledgeDirectory} (found : tables.knowledge_directory.get? id = some row)
    (here : row.knowledge_id = knowledge_id) :
    walkDown tables knowledge_id [row.name] row.parent_id = some (some id) := by
  have listed : (id, row) ∈ get_directories tables knowledge_id row.parent_id :=
    mem_get_directories.mpr ⟨found, here, (filter_parent wellFormed addressed found).symm⟩
  rw [walkDown]
  cases search : (get_directories tables knowledge_id row.parent_id).find?
      (fun directory => decide (directory.2.name = row.name)) with
  | none => exact absurd (by simp) (List.find?_eq_none.mp search (id, row) listed)
  | some directory =>
    have named : directory.2.name = row.name := by simpa using List.find?_some search
    obtain ⟨stored, same, level⟩ := mem_get_directories.mp (List.mem_of_find?_eq_some search)
    rw [filter_parent wellFormed addressed found] at level
    have equal : directory.2 = row := by
      obtain ⟨found_id, there⟩ := directory
      cases there
      cases row
      simp only at same level named here
      rw [same, level, named, here]
    rw [equal] at stored
    have is_id := addressed.distinct directory.1 id row stored found
    exact congrArg (fun found => some (some found)) is_id

theorem exists_names (wellFormed : WellFormed tables) (addressed : Addressed tables) :
    ∀ (rank : Nat) (id : String), (links tables.knowledge_directory).above id < rank →
      Belongs tables knowledge_id id →
        ∃ names, names ≠ [] ∧ (∀ name ∈ names, NameOk name) ∧
          walkDown tables knowledge_id names none = some (some id) := by
  intro rank
  induction rank with
  | zero =>
    intro id enough
    exact absurd enough (Nat.not_lt_zero _)
  | succ rank ih =>
    intro id enough belongs
    obtain ⟨row, found, here⟩ := belongs
    have step := walkDown_name wellFormed addressed found here
    have ok := addressed.names id row found
    cases above : row.parent_id with
    | none => exact ⟨[row.name], by simp, by simpa using ok, above ▸ step⟩
    | some parent_id =>
      have edge := edge_iff.mpr ⟨row, found, above⟩
      have stored := wellFormed.parents id row found parent_id above
      have higher := ParentLinks.Acyclic.above_lt wellFormed.acyclic edge stored.mem_keys
      obtain ⟨names, _, good, walk⟩ := ih parent_id (by omega) (here ▸ stored)
      refine ⟨names ++ [row.name], by simp, ?_, ?_⟩
      · intro name member
        rcases List.mem_append.mp member with before | last
        · exact good name before
        · rwa [List.mem_singleton.mp last]
      · rw [walkDown_append, walk, Option.bind_some, ← above]
        exact step

theorem exists_path (wellFormed : WellFormed tables) (addressed : Addressed tables) {id : String}
    (belongs : Belongs tables knowledge_id id) :
    ∃ path, resolve_dir_path tables path knowledge_id = some id := by
  obtain ⟨names, some_name, ok, walk⟩ := exists_names wellFormed addressed _ id
    (Nat.lt_succ_self _) belongs
  refine ⟨joinPath names, ?_⟩
  rw [resolve_dir_path, segments_joinPath ok some_name, walk]
  rfl

theorem mem_filesAt {directory_id : Option String} {file_id : String} :
    file_id ∈ (filesAt tables knowledge_id directory_id).map (fun placed => placed.1.1) ↔
      tables.knowledge_file.get? (knowledge_id, file_id) = some directory_id ∧
        file_id ∈ tables.file.keys := by
  rw [filesAt, List.mem_map]
  constructor
  · rintro ⟨placed, member, rfl⟩
    obtain ⟨listed, same⟩ := List.mem_filter.mp member
    obtain ⟨stored, file⟩ := mem_get_files.mp listed
    rw [decide_eq_true_iff] at same
    exact ⟨same ▸ stored, Dict.mem_keys_of_get? file⟩
  · rintro ⟨stored, member⟩
    obtain ⟨file, found⟩ := Dict.exists_of_mem_keys member
    refine ⟨((file_id, file), directory_id), ?_, rfl⟩
    exact List.mem_filter.mpr ⟨mem_get_files.mpr ⟨stored, found⟩, decide_eq_true rfl⟩

theorem search_files_eq_filesAt {directory_id : Option String} (named : directory_id ≠ some "") :
    search_files_by_id tables knowledge_id directory_id =
      filesAt tables knowledge_id directory_id := by
  have same : directory_id.filter (fun id => decide (id ≠ "")) = directory_id := by
    cases directory_id with
    | none => rfl
    | some id =>
      have apart : id ≠ "" := by
        rintro rfl
        exact named rfl
      rw [Option.filter_some, if_pos (decide_eq_true apart)]
  rw [search_files_by_id, same, filesAt]

/-- A directory is above a place, and the root is above every place. -/
def Above (directories : Dict String KnowledgeDirectory) (place : Option String) :
    Option String → Prop
  | none => True
  | some id => ∃ lower, place = some lower ∧ ReflTransGen (links directories).Edge lower id

theorem mem_get_subdirs {dirs : List DirectoryModel} {parent_id : Option String}
    {directory : DirectoryModel} : directory ∈ get_subdirs dirs parent_id ↔
      directory ∈ dirs ∧ directory.2.parent_id = parent_id := by
  rw [get_subdirs, List.mem_mergeSort, List.mem_filter, decide_eq_true_iff]

theorem nodup_get_subdirs {dirs : List DirectoryModel} (nodup : dirs.Nodup)
    (parent_id : Option String) : (get_subdirs dirs parent_id).Nodup :=
  (List.mergeSort_perm _ _).nodup_iff.mpr (nodup.filter _)

theorem nodup_get_all_directories : (get_all_directories tables knowledge_id).Nodup :=
  (List.mergeSort_perm _ _).nodup_iff.mpr
    ((List.Nodup.of_map Prod.fst tables.knowledge_directory.keys_nodup).filter _)

theorem countP_renderTree (dirs : List DirectoryModel) (files : List PlacedFile) (fuel : Nat)
    (parent_id : Option String) (indent file_id : String) (below : String → Nat)
    (deeper : ∀ directory ∈ get_subdirs dirs parent_id, ∀ indent,
      (renderTree dirs files fuel (some directory.1) indent).countP (TreeLine.isFile file_id) =
        below directory.1) :
    (renderTree dirs files (fuel + 1) parent_id indent).countP (TreeLine.isFile file_id) =
      ((get_subdirs dirs parent_id).map (fun directory => below directory.1)).sum +
        ((get_files_in_dir files parent_id).map (fun placed => placed.1.1)).count file_id := by
  rw [renderTree, List.countP_append]
  congr 1
  · rw [List.countP_flatMap]
    conv_rhs => rw [← List.zipIdx_map_fst 0 (get_subdirs dirs parent_id), List.map_map]
    congr 1
    refine List.map_congr_left ?_
    intro entry member
    have listed : entry.1 ∈ get_subdirs dirs parent_id := List.fst_mem_of_mem_zipIdx member
    rw [Function.comp_apply, List.countP_cons_of_neg (by simp [TreeLine.isFile]),
      deeper entry.1 listed]
    rfl
  · conv_rhs => rw [← List.zipIdx_map_fst 0 (get_files_in_dir files parent_id)]
    rw [List.countP_map, List.map_map, List.count_eq_countP, List.countP_map]
    refine List.countP_congr ?_
    intro entry _
    simp [TreeLine.isFile]

theorem WellFormed.forest (wellFormed : WellFormed tables) :
    (links tables.knowledge_directory).Forest := by
  refine ⟨?_, ⟨fun node _ child => mem_children, ?_⟩, wellFormed.acyclic⟩
  · intro child parent edge
    obtain ⟨row, found, named⟩ := edge_iff.mp edge
    exact (wellFormed.parents child row found parent named).mem_keys
  · intro node _
    exact tables.knowledge_directory.keys_nodup.sublist (List.filter_sublist.map Prod.fst)

theorem exists_unique_subdir (wellFormed : WellFormed tables) {lower : String}
    (belongs : Belongs tables knowledge_id lower) {parent_id : Option String}
    (other : some lower ≠ parent_id)
    (above : Above tables.knowledge_directory (some lower) parent_id) :
    ∃ directory ∈ get_subdirs (get_all_directories tables knowledge_id) parent_id,
      ReflTransGen (links tables.knowledge_directory).Edge lower directory.1 ∧
        ∀ second ∈ get_subdirs (get_all_directories tables knowledge_id) parent_id,
          ReflTransGen (links tables.knowledge_directory).Edge lower second.1 →
            second = directory := by
  have exists_one : ∃ id row, tables.knowledge_directory.get? id = some row ∧
      row.parent_id = parent_id ∧
        ReflTransGen (links tables.knowledge_directory).Edge lower id := by
    cases parent_id with
    | none =>
      obtain ⟨root, stored, top, path⟩ := wellFormed.forest.rooted belongs.mem_keys
      obtain ⟨row, found⟩ := Dict.exists_of_mem_keys stored
      refine ⟨root, row, found, ?_, path⟩
      have read : (tables.knowledge_directory.get? root).bind (fun row => row.parent_id) = none := top
      rw [found] at read
      exact read
    | some id =>
      obtain ⟨start, same, path⟩ := above
      obtain rfl := Option.some.inj same
      rcases ReflTransGen.cases_tail path with equal | ⟨child, under, edge⟩
      · exact absurd (congrArg some equal.symm) other
      · obtain ⟨row, found, named⟩ := edge_iff.mp edge
        exact ⟨child, row, found, named, under⟩
  obtain ⟨id, row, found, level, path⟩ := exists_one
  have here : row.knowledge_id = knowledge_id := by
    obtain ⟨there, stored, same⟩ := belongs.above wellFormed path
    obtain rfl := Option.some.inj (found.symm.trans stored)
    exact same
  refine ⟨(id, row), mem_get_subdirs.mpr ⟨mem_get_all_directories.mpr ⟨found, here⟩, level⟩,
    path, ?_⟩
  rintro ⟨second, second_row⟩ member under
  obtain ⟨listed, second_level⟩ := mem_get_subdirs.mp member
  obtain ⟨stored, _⟩ := mem_get_all_directories.mp listed
  -- of two directories above one place, one is above the other; on one level they are the same
  have apart : ∀ first last first_row last_row,
      tables.knowledge_directory.get? first = some first_row →
        tables.knowledge_directory.get? last = some last_row → first_row.parent_id = parent_id →
          last_row.parent_id = parent_id →
            ReflTransGen (links tables.knowledge_directory).Edge first last → first = last := by
    intro first last first_row last_row one two up up_too climbs
    rcases ReflTransGen.cases_head_iff.mp climbs with same | ⟨next, edge, rest⟩
    · exact same
    · obtain ⟨row, there, named⟩ := edge_iff.mp edge
      obtain rfl := Option.some.inj (one.symm.trans there)
      have back : (links tables.knowledge_directory).Edge last next :=
        edge_iff.mpr ⟨last_row, two, up_too.trans (up.symm.trans named)⟩
      exact absurd (TransGen.head' back rest) (wellFormed.acyclic last)
  have same : second = id := by
    rcases ReflTransGen.total_of_right_unique parent_unique path under with climbs | climbs
    · exact (apart id second row second_row found stored level second_level climbs).symm
    · exact apart second id second_row row stored found second_level level climbs
  subst same
  exact congrArg (Prod.mk second) (Option.some.inj (stored.symm.trans found))

theorem nodup_file_ids :
    ((get_files_with_directory_ids tables knowledge_id).map (fun placed => placed.1.1)).Nodup := by
  rw [List.nodup_iff_pairwise_ne, List.pairwise_map, get_files_with_directory_ids]
  refine List.Pairwise.filterMap _ ?_ (List.pairwise_map.mp tables.knowledge_file.keys_nodup)
  rintro ⟨⟨first_base, first_id⟩, first_place⟩ ⟨⟨second_base, second_id⟩, second_place⟩ different
    one first two second
  split at first
  · rename_i first_here
    split at second
    · rename_i second_here
      obtain ⟨_, _, rfl⟩ := Option.map_eq_some_iff.mp first
      obtain ⟨_, _, rfl⟩ := Option.map_eq_some_iff.mp second
      rintro rfl
      exact different (Prod.ext (first_here.trans second_here.symm) rfl)
    · cases second
  · cases first

open Classical in
noncomputable def lines (directories : Dict String KnowledgeDirectory) (place : Option String)
    (level : Option String) : Nat :=
  if Above directories place level then 1 else 0

open Classical in
noncomputable def lower (tables : Tables) (knowledge_id : String) (level : Option String) : Nat :=
  ((get_all_directories tables knowledge_id).filter (fun directory =>
    decide (∀ id, level = some id →
      TransGen (links tables.knowledge_directory).Edge directory.1 id))).length

theorem lower_lt (wellFormed : WellFormed tables) {level : Option String}
    {directory : DirectoryModel}
    (member : directory ∈ get_subdirs (get_all_directories tables knowledge_id) level) :
    lower tables knowledge_id (some directory.1) < lower tables knowledge_id level := by
  obtain ⟨listed, named⟩ := mem_get_subdirs.mp member
  obtain ⟨stored, _⟩ := mem_get_all_directories.mp listed
  have edges : ∀ id, level = some id →
      (links tables.knowledge_directory).Edge directory.1 id :=
    fun id same => edge_iff.mpr ⟨directory.2, stored, named.trans same⟩
  refine ParentLinks.length_filter_lt ?_ listed ?_ ?_
  · intro other under
    simp only [decide_eq_true_eq] at under ⊢
    exact fun id same => (under directory.1 rfl).tail (edges id same)
  · simp only [decide_eq_true_eq]
    exact fun id same => .single (edges id same)
  · simp only [decide_eq_false_iff_not]
    exact fun cycle => wellFormed.acyclic directory.1 (cycle directory.1 rfl)

theorem Above.up (wellFormed : WellFormed tables) {place level : Option String}
    {directory : DirectoryModel}
    (member : directory ∈ get_subdirs (get_all_directories tables knowledge_id) level)
    (above : Above tables.knowledge_directory place (some directory.1)) :
    place ≠ level ∧ Above tables.knowledge_directory place level := by
  obtain ⟨listed, named⟩ := mem_get_subdirs.mp member
  obtain ⟨stored, _⟩ := mem_get_all_directories.mp listed
  obtain ⟨start, rfl, path⟩ := above
  cases level with
  | none => exact ⟨by simp, trivial⟩
  | some id =>
    have edge := edge_iff.mpr ⟨directory.2, stored, named⟩
    refine ⟨?_, start, rfl, path.tail edge⟩
    intro same
    obtain rfl := Option.some.inj same
    exact wellFormed.acyclic start (TransGen.tail' path edge)

theorem countP_tree (wellFormed : WellFormed tables) {file_id : String} {place : Option String}
    (stored : tables.knowledge_file.get? (knowledge_id, file_id) = some place)
    (kept : file_id ∈ tables.file.keys) : ∀ (fuel : Nat) (level : Option String) (indent : String),
      lower tables knowledge_id level < fuel →
        (renderTree (get_all_directories tables knowledge_id)
          (get_files_with_directory_ids tables knowledge_id) fuel level indent).countP
            (TreeLine.isFile file_id) = lines tables.knowledge_directory place level := by
  intro fuel
  induction fuel with
  | zero =>
    intro level indent enough
    exact absurd enough (Nat.not_lt_zero _)
  | succ fuel ih =>
    intro level indent enough
    have shorter : ∀ directory ∈ get_subdirs (get_all_directories tables knowledge_id) level,
        ∀ indent, (renderTree (get_all_directories tables knowledge_id)
          (get_files_with_directory_ids tables knowledge_id) fuel (some directory.1) indent).countP
            (TreeLine.isFile file_id) =
              lines tables.knowledge_directory place (some directory.1) := by
      intro directory member indent
      have deeper := lower_lt wellFormed member
      exact ih (some directory.1) indent (by omega)
    rw [countP_renderTree _ _ fuel level indent file_id (fun id =>
      lines tables.knowledge_directory place (some id)) shorter]
    have own : ((get_files_in_dir (get_files_with_directory_ids tables knowledge_id) level).map
        (fun placed => placed.1.1)).count file_id = if place = level then 1 else 0 := by
      split
      · rename_i here
        refine List.count_eq_one_of_mem ?_ (mem_filesAt.mpr ⟨here ▸ stored, kept⟩)
        exact nodup_file_ids.sublist (List.filter_sublist.map _)
      · rename_i other
        refine List.count_eq_zero_of_not_mem ?_
        intro member
        exact other (Option.some.inj (stored.symm.trans (mem_filesAt.mp member).1))
    rw [own]
    have below : ∀ directory ∈ get_subdirs (get_all_directories tables knowledge_id) level,
        ¬ (place ≠ level ∧ Above tables.knowledge_directory place level) →
          lines tables.knowledge_directory place (some directory.1) = 0 := by
      intro directory member apart
      exact if_neg (fun above => apart (above.up wellFormed member))
    by_cases inside : place ≠ level ∧ Above tables.knowledge_directory place level
    · obtain ⟨other, above⟩ := inside
      rw [if_neg other, Nat.add_zero]
      cases place with
      | none =>
        cases level with
        | none => exact absurd rfl other
        | some id =>
          obtain ⟨_, missing, _⟩ := above
          cases missing
      | some start =>
        obtain ⟨directory, member, path, alone⟩ := exists_unique_subdir wellFormed
          (wellFormed.placed knowledge_id file_id start stored) other above
        have once := @List.count_eq_one_of_mem _ instBEqOfDecidableEq _ _ _
          (nodup_get_subdirs nodup_get_all_directories level) member
        rw [List.sum_map_eq_nsmul_single directory, once, one_nsmul, lines, lines, if_pos above]
        · exact if_pos ⟨start, rfl, path⟩
        · intro second different listed
          refine if_neg ?_
          rintro ⟨from_id, same, climbs⟩
          obtain rfl := Option.some.inj same
          exact different (alone second listed climbs)
    · rw [List.sum_eq_zero (by
        intro count member
        obtain ⟨directory, listed, rfl⟩ := List.mem_map.mp member
        exact below directory listed inside), Nat.zero_add, lines]
      by_cases here : place = level
      · subst here
        have at_level : Above tables.knowledge_directory place place := by
          cases place with
          | none => trivial
          | some id => exact ⟨id, rfl, .refl⟩
        rw [if_pos rfl, if_pos at_level]
      · rw [if_neg here, if_neg (fun above => inside ⟨here, above⟩)]

theorem countP_treeLines (wellFormed : WellFormed tables) {file_id : String}
    {place : Option String}
    (stored : tables.knowledge_file.get? (knowledge_id, file_id) = some place)
    (kept : file_id ∈ tables.file.keys) :
    (treeLines tables knowledge_id).countP (TreeLine.isFile file_id) = 1 := by
  have enough : lower tables knowledge_id none <
      (get_all_directories tables knowledge_id).length + 1 :=
    Nat.lt_succ_of_le (List.length_filter_le _ _)
  rw [treeLines, countP_tree wellFormed stored kept _ none "  " enough]
  exact if_pos trivial

theorem listed_once (wellFormed : WellFormed tables) (addressed : Addressed tables)
    {file_id : String} {place : Option String}
    (stored : tables.knowledge_file.get? (knowledge_id, file_id) = some place)
    (kept : file_id ∈ tables.file.keys) : ListedOnce tables knowledge_id file_id := by
  have placed : ∀ id, place = some id → Belongs tables knowledge_id id :=
    fun id same => wellFormed.placed knowledge_id file_id id (same ▸ stored)
  have real : ∀ id, Belongs tables knowledge_id id → id ≠ "" := by
    rintro id belongs rfl
    exact addressed.generated belongs.mem_keys
  have listed : ∀ directory_id,
      (∀ id, directory_id = some id → Belongs tables knowledge_id id) →
        search_files_by_id tables knowledge_id directory_id =
          filesAt tables knowledge_id directory_id := by
    intro directory_id belongs
    refine search_files_eq_filesAt ?_
    intro empty
    exact real "" (belongs "" empty) rfl
  have here := mem_filesAt.mpr ⟨stored, kept⟩
  refine ⟨⟨place, ⟨placed, (listed place placed).symm ▸ here⟩, ?_⟩, ⟨place, ⟨?_, here⟩, ?_⟩,
    countP_treeLines wellFormed stored kept⟩
  · rintro other ⟨belongs, member⟩
    rw [listed other belongs] at member
    exact Option.some.inj ((mem_filesAt.mp member).1.symm.trans stored)
  · exact fun id same => exists_path wellFormed addressed (placed id same)
  · rintro other ⟨_, member⟩
    exact Option.some.inj ((mem_filesAt.mp member).1.symm.trans stored)

end Placed

/-- Knowledge bases without directories, of stored files. -/
structure Undivided (tables : Tables) : Prop where
  directories : tables.knowledge_directory.keys = []
  placed : ∀ key place, tables.knowledge_file.get? key = some place →
    place = none ∧ key.2 ∈ tables.file.keys

/-- The directories are well formed, and every file of a knowledge base is listed in one place. -/
def InPlace (tables : Tables) : Prop :=
  WellFormed tables ∧ ∀ knowledge_id file_id, has_file tables knowledge_id file_id = true →
    ListedOnce tables knowledge_id file_id

section Run

variable {enforced : Bool} {tables : Tables}

/-- The files of knowledge bases are stored. -/
def Kept (tables : Tables) : Prop :=
  ∀ key ∈ tables.knowledge_file.keys, key.2 ∈ tables.file.keys

theorem Kept.step (kept : Kept tables) (request : Request) :
    Kept (handle enforced tables request) := by
  cases request with
  | create_directory id knowledge_id name parent_id =>
    simp only [handle, create_directory]
    split
    · exact kept
    · exact kept
  | update_directory knowledge_id dir_id name parent_id =>
    rw [handle]
    split
    · rename_i here
      obtain ⟨row, found, same⟩ := inKnowledge_iff.mp here
      rcases @update_cases enforced tables knowledge_id dir_id name parent_id row found same with
        unchanged | ⟨final, stored, _⟩
      · rw [unchanged]
        exact kept
      · rw [stored]
        exact kept
    · exact kept
  | delete_directory knowledge_id dir_id move_files =>
    rw [handle]
    split
    · cases done : delete_directory enforced tables dir_id move_files with
      | none => exact kept
      | some next =>
        obtain ⟨directory, found, done⟩ := Option.bind_eq_some_iff.mp done
        obtain ⟨ids, collected, rfl⟩ := Option.map_eq_some_iff.mp done
        intro key member
        refine kept key ?_
        by_cases moves : move_files = true
        · simpa [moves] using member
        · simp only [Option.getD_some, if_neg moves] at member
          exact (Dict.mem_keys_foldl_erase.mp member).2
    · exact kept
  | add_file knowledge_id file_id directory_id =>
    rw [handle, add_file_to_knowledge_by_id]
    split
    · rename_i stored
      split
      · exact kept
      · intro key member
        rcases Dict.mem_keys_set.mp member with rfl | before
        · obtain ⟨file, found, _⟩ := (Option.any_eq_true _ _).mp stored
          exact Dict.mem_keys_of_get? found
        · exact kept key before
    · exact kept
  | move_file knowledge_id file_id directory_id =>
    rw [handle, move_file_to_directory]
    split
    · split
      · intro key member
        exact kept key (by simpa using member)
      · exact kept
    · exact kept

/-- In a run of orderly requests the directories stay well formed, and every file of a knowledge
base is listed in exactly one place. -/
theorem after_inPlace (undivided : Undivided tables) {requests : List Request}
    (orderly : Runs.Always (fun earlier request =>
      Orderly enforced (after enforced tables earlier) request) requests) :
    InPlace (after enforced tables requests) := by
  have empty : ∀ id row, tables.knowledge_directory.get? id ≠ some row := by
    intro id row found
    have member := Dict.mem_keys_of_get? found
    rw [undivided.directories] at member
    cases member
  have starts : WellFormed tables ∧ Addressed tables ∧ Kept tables := by
    refine ⟨⟨?_, ?_, ?_⟩, ⟨?_, ?_, ?_⟩, ?_⟩
    · intro node cycle
      obtain ⟨next, edge, _⟩ := TransGen.head'_iff.mp cycle
      obtain ⟨row, found, _⟩ := edge_iff.mp edge
      exact empty node row found
    · intro id row found
      exact absurd found (empty id row)
    · intro knowledge_id file_id directory_id stored
      cases (undivided.placed _ _ stored).1
    · rw [undivided.directories]
      exact List.not_mem_nil
    · intro id row found
      exact absurd found (empty id row)
    · intro id other row found
      exact absurd found (empty id row)
    · intro key member
      obtain ⟨place, stored⟩ := Dict.exists_of_mem_keys member
      exact (undivided.placed key place stored).2
  obtain ⟨wellFormed, addressed, kept⟩ := Runs.foldl_invariant
    (fun tables => WellFormed tables ∧ Addressed tables ∧ Kept tables) (by
      rintro old request ⟨wellFormed, addressed, kept⟩ good
      obtain ⟨next, addressed_next⟩ := handle_wellFormed wellFormed addressed good
      exact ⟨next, addressed_next, kept.step request⟩) starts orderly
  refine ⟨wellFormed, ?_⟩
  intro knowledge_id file_id inside
  have member := of_decide_eq_true inside
  obtain ⟨place, stored⟩ := Dict.exists_of_mem_keys member
  exact listed_once wellFormed addressed stored (kept _ member)

end Run

def bare : Tables where
  file := Dict.empty.set "f" ⟨"u", none, "a.txt", some [("content", .str "text")], none, none, none⟩
  knowledge_directory := .empty
  knowledge_file := .empty

theorem bare_undivided : Undivided bare :=
  ⟨rfl, by rintro key place ⟨⟩⟩

def firstId : GeneratedId := ⟨"d1", by decide⟩

def secondId : GeneratedId := ⟨"d2", by decide⟩

def filed : List Request :=
  [.create_directory firstId "k1" "docs" none,
    .create_directory secondId "k1" "old" (some "d1"),
    .add_file "k1" "f" (some "d2"),
    .delete_directory "k1" "d2" true]

theorem after_inPlace_filed : InPlace (after true bare filed) := by
  refine after_inPlace bare_undivided ?_
  have ok : NameOk "docs" ∧ NameOk "old" := by
    unfold NameOk
    decide
  rw [filed, Runs.always_cons, Runs.always_cons, Runs.always_cons, Runs.always_cons]
  refine ⟨⟨by rintro id ⟨⟩, ok.1, ?_⟩, ⟨?_, ok.2, by simp⟩, ?_, .inl rfl, Runs.always_nil _⟩
  · rintro _ other ⟨⟩
  · rintro id ⟨⟩
    exact .inl ⟨⟨"k1", none, "docs"⟩, by decide +kernel, rfl⟩
  · rintro id ⟨⟩
    exact .inl ⟨⟨"k1", some "d1", "old"⟩, by decide +kernel, rfl⟩

def tied : List Request :=
  [.create_directory firstId "k1" "docs" none,
    .create_directory secondId "k2" "docs" (some "d1")]

theorem not_always_inPlace : ¬ ∀ enforced tables requests, Undivided tables →
    InPlace (after enforced tables requests) := by
  intro claimed
  obtain ⟨wellFormed, _⟩ := claimed true bare tied bare_undivided
  obtain ⟨row, found, same⟩ := wellFormed.parents "d2" ⟨"k2", some "d1", "docs"⟩
    (by decide +kernel) "d1" rfl
  have stored : (after true bare tied).knowledge_directory.get? "d1" = some ⟨"k1", none, "docs"⟩ := by
    decide +kernel
  obtain rfl := Option.some.inj (found.symm.trans stored)
  revert same
  decide

end OpenWebui.Knowledge
