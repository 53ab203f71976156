import OpenWebui.Knowledge.Listing
import OpenWebui.KnowledgeFs.Resolve

/-! When the two resolvers of directory paths agree, and that both ways of collecting the
directories below one find the same. -/

namespace OpenWebui.KnowledgeFs

open Relation
open Knowledge (Tables DirectoryModel KnowledgeDirectory Belongs NameOk get_all_directories
  get_directories resolve_dir_path joinPath splitPath)

/-- The directories of a knowledge base: their links do not run in circles, their names are filled
and without slashes, and no two with the same parent have one name. -/
structure DirectorySet (tables : Tables) (knowledge_id : String) : Prop where
  generated : ¬ Belongs tables knowledge_id ""
  acyclic : ∀ id, Belongs tables knowledge_id id →
    ¬ TransGen (Knowledge.links tables.knowledge_directory).Edge id id
  names : ∀ id row, tables.knowledge_directory.get? id = some row →
    row.knowledge_id = knowledge_id → NameOk row.name
  siblings : ∀ id other row, tables.knowledge_directory.get? id = some row →
    tables.knowledge_directory.get? other = some row → row.knowledge_id = knowledge_id → id = other

/-- Every parent is a directory of the knowledge base. -/
def ParentsInside (tables : Tables) (knowledge_id : String) : Prop :=
  ∀ id row, tables.knowledge_directory.get? id = some row → row.knowledge_id = knowledge_id →
    ∀ parent_id, row.parent_id = some parent_id → Belongs tables knowledge_id parent_id

/-- Both resolvers find every directory by its path and the same for every other text, and the files
below a directory are those in its descendants. -/
structure ResolversAgree (tables : Tables) (knowledge_id : String) (tree : DirectoryTree) :
    Prop where
  found : ∀ id, Belongs tables knowledge_id id → ∃ path, tree.dir_id_to_path.get? id = some path ∧
    resolve_dir_path tables path knowledge_id = some id ∧ resolve_path path tree = some id
  same : ∀ path, resolve_dir_path tables path knowledge_id = resolve_path path tree
  files : ∀ id, Belongs tables knowledge_id id →
    get_files_under_dir tree id = tree.files.filter (fun placed =>
      placed.2.any (fun directory_id =>
        decide (directory_id ∈ get_descendant_dir_ids tables id knowledge_id)))

/-- The names that lead to a directory from the topmost one above it that the tree has. -/
inductive TreeNames (dirs : List DirectoryModel) : String → List String → Prop
  | top {id row} : dirs.lookup id = some row → parentOf dirs row = none →
      TreeNames dirs id [row.name]
  | inside {id row parent_id names} : dirs.lookup id = some row →
      parentOf dirs row = some parent_id → TreeNames dirs parent_id names →
        TreeNames dirs id (names ++ [row.name])

theorem joinPath_concat {names : List String} (some_name : names ≠ []) (name : String) :
    joinPath (names ++ [name]) = joinPath names ++ "/" ++ name := by
  apply String.toList_inj.mp
  simp only [joinPath, String.toList_ofList, String.toList_append, List.map_append, List.map_cons,
    List.map_nil]
  rw [Text.intercalate_concat (by simpa using some_name), List.append_assoc]
  rfl

theorem joinPath_ne_empty {names : List String} (some_name : names ≠ [])
    (filled : ∀ name ∈ names, name ≠ "") : joinPath names ≠ "" := by
  obtain ⟨before, name, rfl⟩ := (List.eq_nil_or_concat' names).resolve_left some_name
  intro empty
  have last : name ≠ "" := filled name (by simp)
  rcases List.eq_nil_or_concat' before with rfl | ⟨earlier, other, rfl⟩
  · exact last (by simpa [joinPath] using empty)
  · rw [joinPath_concat (by simp)] at empty
    simp at empty

section Set

variable {tables : Tables} {knowledge_id : String}

theorem lookup_dirs {id : String} {row : KnowledgeDirectory} :
    (get_all_directories tables knowledge_id).lookup id = some row ↔
      tables.knowledge_directory.get? id = some row ∧ row.knowledge_id = knowledge_id := by
  refine ⟨fun read => ?_, fun both => Knowledge.lookup_get_all_directories both.1 both.2⟩
  exact Knowledge.mem_get_all_directories.mp (Assoc.mem_of_lookup read)

theorem mem_dirs {id : String} :
    id ∈ (get_all_directories tables knowledge_id).map Prod.fst ↔ Belongs tables knowledge_id id := by
  rw [List.mem_map]
  constructor
  · rintro ⟨⟨_, row⟩, listed, rfl⟩
    exact ⟨row, Knowledge.mem_get_all_directories.mp listed⟩
  · rintro ⟨row, both⟩
    exact ⟨(id, row), Knowledge.mem_get_all_directories.mpr both, rfl⟩

theorem parentOf_eq_some {row : KnowledgeDirectory} {parent_id : String} :
    parentOf (get_all_directories tables knowledge_id) row = some parent_id ↔
      row.parent_id = some parent_id ∧ parent_id ≠ "" ∧ Belongs tables knowledge_id parent_id := by
  rw [parentOf, Option.filter_eq_some_iff, decide_eq_true_iff, mem_dirs]

theorem TreeNames.ne_nil {id : String} {names : List String}
    (named : TreeNames (get_all_directories tables knowledge_id) id names) : names ≠ [] := by
  cases named <;> simp

theorem TreeNames.belongs {id : String} {names : List String}
    (named : TreeNames (get_all_directories tables knowledge_id) id names) :
    Belongs tables knowledge_id id := by
  cases named with
  | top found _ => exact ⟨_, lookup_dirs.mp found⟩
  | inside found _ _ => exact ⟨_, lookup_dirs.mp found⟩

variable (set : DirectorySet tables knowledge_id)

include set

theorem TreeNames.ok {id : String} {names : List String}
    (named : TreeNames (get_all_directories tables knowledge_id) id names) :
    ∀ name ∈ names, NameOk name := by
  induction named with
  | top found _ =>
    intro name member
    obtain rfl := List.mem_singleton.mp member
    exact set.names _ _ (lookup_dirs.mp found).1 (lookup_dirs.mp found).2
  | inside found _ _ ih =>
    intro name member
    rcases List.mem_append.mp member with before | last
    · exact ih name before
    · obtain rfl := List.mem_singleton.mp last
      exact set.names _ _ (lookup_dirs.mp found).1 (lookup_dirs.mp found).2

theorem TreeNames.splitPath_joinPath {id : String} {names : List String}
    (named : TreeNames (get_all_directories tables knowledge_id) id names) :
    splitPath (joinPath names) = names :=
  Knowledge.splitPath_joinPath (fun name member => (named.ok set name member).2) named.ne_nil

/-- The paths that are known are those of directories. -/
def Known (tables : Tables) (knowledge_id : String) (dir_id_to_path : Dict String String) : Prop :=
  ∀ id path, dir_id_to_path.get? id = some path → ∃ names,
    TreeNames (get_all_directories tables knowledge_id) id names ∧ path = joinPath names

omit set in
theorem TreeNames.functional {id : String} {names other : List String}
    (named : TreeNames (get_all_directories tables knowledge_id) id names)
    (again : TreeNames (get_all_directories tables knowledge_id) id other) : names = other := by
  induction named generalizing other with
  | top found outside =>
    cases again with
    | top found_again _ => rw [Option.some.inj (found.symm.trans found_again)]
    | inside found_again above _ =>
      obtain rfl := Option.some.inj (found.symm.trans found_again)
      cases outside.symm.trans above
  | inside found above rest ih =>
    cases again with
    | top found_again outside =>
      obtain rfl := Option.some.inj (found.symm.trans found_again)
      cases outside.symm.trans above
    | inside found_again above_again rest_again =>
      obtain rfl := Option.some.inj (found.symm.trans found_again)
      obtain rfl := Option.some.inj (above.symm.trans above_again)
      rw [ih rest_again]

omit set in
def treeLinks (dirs : List DirectoryModel) : ParentLinks String where
  nodes := dirs.map Prod.fst
  parent id := (dirs.lookup id).bind (parentOf dirs)
  children id := (dirs.filter (fun d => decide (d.2.parent_id = some id))).map Prod.fst

omit set in
theorem treeLinks_edge {id parent_id : String} {row : KnowledgeDirectory}
    (found : (get_all_directories tables knowledge_id).lookup id = some row)
    (above : parentOf (get_all_directories tables knowledge_id) row = some parent_id) :
    (treeLinks (get_all_directories tables knowledge_id)).Edge id parent_id :=
  ⟨mem_dirs.mpr ⟨row, lookup_dirs.mp found⟩, Option.bind_eq_some_iff.mpr ⟨row, found, above⟩⟩

theorem DirectorySet.treeLinks_acyclic :
    (treeLinks (get_all_directories tables knowledge_id)).Acyclic := by
  have edges : ∀ id parent_id, (treeLinks (get_all_directories tables knowledge_id)).Edge
      id parent_id → (Knowledge.links tables.knowledge_directory).Edge id parent_id := by
    rintro id parent_id ⟨_, named⟩
    obtain ⟨row, found, above⟩ := Option.bind_eq_some_iff.mp named
    exact Knowledge.edge_iff.mpr ⟨row, (lookup_dirs.mp found).1, (parentOf_eq_some.mp above).1⟩
  intro node cycle
  obtain ⟨_, first, _⟩ := TransGen.head'_iff.mp cycle
  exact set.acyclic node (mem_dirs.mp first.1) (cycle.lift id edges)

omit set in
theorem above_le (id : String) : (treeLinks (get_all_directories tables knowledge_id)).above id ≤
    (get_all_directories tables knowledge_id).length :=
  (List.length_filter_le _ _).trans_eq (List.length_map _)

theorem getDirPath_spec {fuel : Nat} {dir_id_to_path : Dict String String} {id : String}
    (known : Known tables knowledge_id dir_id_to_path) (belongs : Belongs tables knowledge_id id)
    (enough : (treeLinks (get_all_directories tables knowledge_id)).above id < fuel) :
    ∃ names found, TreeNames (get_all_directories tables knowledge_id) id names ∧
      getDirPath (get_all_directories tables knowledge_id) fuel dir_id_to_path id =
        some (joinPath names, found) ∧ Known tables knowledge_id found ∧ id ∈ found.keys ∧
          dir_id_to_path.keys ⊆ found.keys := by
  induction fuel generalizing dir_id_to_path id with
  | zero => exact absurd enough (Nat.not_lt_zero _)
  | succ fuel ih =>
    rw [getDirPath]
    cases memo : dir_id_to_path.get? id with
    | some path =>
      obtain ⟨names, named, rfl⟩ := known id path memo
      exact ⟨names, dir_id_to_path, named, rfl, known, Dict.mem_keys_of_get? memo,
        List.Subset.refl _⟩
    | none =>
      obtain ⟨row, stored, here⟩ := belongs
      have found := lookup_dirs.mpr ⟨stored, here⟩
      simp only [found]
      have remembers : ∀ {memo : Dict String String} {names : List String},
          Known tables knowledge_id memo → dir_id_to_path.keys ⊆ memo.keys →
            TreeNames (get_all_directories tables knowledge_id) id names →
              Known tables knowledge_id (memo.set id (joinPath names)) ∧
                id ∈ (memo.set id (joinPath names)).keys ∧
                  dir_id_to_path.keys ⊆ (memo.set id (joinPath names)).keys := by
        intro memo names known grows named
        refine ⟨?_, Dict.mem_keys_set.mpr (.inl rfl), fun other member =>
          Dict.mem_keys_set.mpr (.inr (grows member))⟩
        intro other path read
        rw [Dict.get?_set] at read
        split at read
        · rename_i same
          obtain rfl := same
          exact ⟨names, named, (Option.some.inj read).symm⟩
        · exact known other path read
      cases above : parentOf (get_all_directories tables knowledge_id) row with
      | none =>
        have named := TreeNames.top found above
        have path : joinPath [row.name] = row.name := by simp [joinPath]
        obtain ⟨kept, present, grown⟩ := remembers known (List.Subset.refl _) named
        rw [path] at kept present grown
        exact ⟨[row.name], _, named, by rw [path], kept, present, grown⟩
      | some parent_id =>
        have inside := (parentOf_eq_some.mp above).2.2
        have higher := set.treeLinks_acyclic.above_lt (treeLinks_edge found above)
          (mem_dirs.mpr inside)
        obtain ⟨names, memo, named_above, climbs, known_above, _, grows⟩ := ih known inside
          (by omega)
        have named := TreeNames.inside found above named_above
        obtain ⟨kept, present, grown⟩ := remembers known_above grows named
        have filled : joinPath names ≠ "" := joinPath_ne_empty named_above.ne_nil
          (fun name member => (named_above.ok set name member).1)
        rw [joinPath_concat named_above.ne_nil] at kept present grown
        refine ⟨names ++ [row.name], _, named, ?_, kept, present, grown⟩
        simp only [climbs, Option.map_some, if_pos filled, joinPath_concat named_above.ne_nil]

theorem foldlM_getDirPath {dirs : List DirectoryModel}
    (inside : dirs ⊆ get_all_directories tables knowledge_id) {dir_id_to_path : Dict String String}
    (known : Known tables knowledge_id dir_id_to_path) :
    ∃ found, dirs.foldlM (fun dir_id_to_path d =>
        (getDirPath (get_all_directories tables knowledge_id)
          ((get_all_directories tables knowledge_id).length + 1) dir_id_to_path d.1).map Prod.snd)
        dir_id_to_path = some found ∧ Known tables knowledge_id found ∧
          dir_id_to_path.keys ⊆ found.keys ∧ ∀ d ∈ dirs, d.1 ∈ found.keys := by
  induction dirs generalizing dir_id_to_path with
  | nil => exact ⟨dir_id_to_path, rfl, known, List.Subset.refl _, fun _ member => nomatch member⟩
  | cons d rest ih =>
    have belongs : Belongs tables knowledge_id d.1 :=
      ⟨d.2, Knowledge.mem_get_all_directories.mp (inside List.mem_cons_self)⟩
    obtain ⟨names, first, _, read, known_first, present, grows⟩ := getDirPath_spec set known belongs
      (Nat.lt_succ_of_le (above_le d.1))
    obtain ⟨found, later, known_found, kept, all⟩ := ih
      (fun other member => inside (List.mem_cons_of_mem d member)) known_first
    refine ⟨found, ?_, known_found, fun id member => kept (grows member), ?_⟩
    · simp only [List.foldlM_cons, read, Option.map_some, Option.bind_eq_bind, Option.bind_some]
      exact later
    · intro other member
      rcases List.mem_cons.mp member with rfl | after
      · exact kept present
      · exact all other after

theorem build_directory_tree_spec : ∃ tree, build_directory_tree tables knowledge_id = .ok tree ∧
    tree.dirs = get_all_directories tables knowledge_id ∧
      Known tables knowledge_id tree.dir_id_to_path ∧
        (∀ id, Belongs tables knowledge_id id → id ∈ tree.dir_id_to_path.keys) ∧
          tree.path_to_dir_id = tree.dir_id_to_path.entries.foldl (fun path_to_dir_id entry =>
            path_to_dir_id.set entry.2 entry.1) Dict.empty := by
  obtain ⟨found, built, known, _, all⟩ := foldlM_getDirPath set (List.Subset.refl _)
    (fun id path read => by simp at read : Known tables knowledge_id Dict.empty)
  refine ⟨_, by rw [build_directory_tree, built], rfl, known, ?_, rfl⟩
  intro id belongs
  obtain ⟨d, listed, rfl⟩ := List.mem_map.mp (mem_dirs.mpr belongs)
  exact all d listed

section Closed

variable (inside : ParentsInside tables knowledge_id)

include inside

theorem parentOf_of_inside {id : String} {row : KnowledgeDirectory}
    (found : (get_all_directories tables knowledge_id).lookup id = some row) :
    parentOf (get_all_directories tables knowledge_id) row = row.parent_id := by
  obtain ⟨stored, here⟩ := lookup_dirs.mp found
  cases named : row.parent_id with
  | none => rw [parentOf, named, Option.filter_none]
  | some parent_id =>
    have belongs := inside id row stored here parent_id named
    exact parentOf_eq_some.mpr ⟨named, fun empty => set.generated (empty ▸ belongs), belongs⟩

theorem TreeNames.injective {id other : String} {names : List String}
    (named : TreeNames (get_all_directories tables knowledge_id) id names)
    (again : TreeNames (get_all_directories tables knowledge_id) other names) : id = other := by
  have unique : ∀ {id other : String} {row other_row : KnowledgeDirectory},
      (get_all_directories tables knowledge_id).lookup id = some row →
        (get_all_directories tables knowledge_id).lookup other = some other_row →
          row.parent_id = other_row.parent_id → row.name = other_row.name → id = other := by
    intro id other row other_row found found_again same_parent same_name
    obtain ⟨stored, here⟩ := lookup_dirs.mp found
    obtain ⟨stored_again, here_again⟩ := lookup_dirs.mp found_again
    have same : row = other_row := by
      cases row
      cases other_row
      simp only at here here_again same_parent same_name
      rw [here, here_again, same_parent, same_name]
    exact set.siblings id other row stored (same ▸ stored_again) here
  induction named generalizing other with
  | @top id row found outside =>
    generalize shown : [row.name] = names at again
    cases again with
    | top found_again outside_again =>
      refine unique found found_again ?_ (List.singleton_inj.mp shown)
      rw [← parentOf_of_inside set inside found, outside,
        ← parentOf_of_inside set inside found_again, outside_again]
    | inside found_again above rest =>
      exact absurd (List.append_eq_singleton_iff.mp shown.symm) (by simp [rest.ne_nil])
  | @inside id row parent_id names found above rest ih =>
    generalize shown : names ++ [row.name] = whole at again
    cases again with
    | top found_again _ =>
      exact absurd (List.append_eq_singleton_iff.mp shown) (by simp [rest.ne_nil])
    | inside found_again above_again rest_again =>
      obtain ⟨rfl, last⟩ := List.append_inj' shown rfl
      refine unique found found_again ?_ (List.singleton_inj.mp last)
      rw [← parentOf_of_inside set inside found, above,
        ← parentOf_of_inside set inside found_again, above_again, ih rest_again]

omit set inside in
theorem walkDown_concat (names : List String) (name : String) (start : Option String) :
    Knowledge.walkDown tables knowledge_id (names ++ [name]) start =
      (Knowledge.walkDown tables knowledge_id names start).bind (fun parent_id =>
        ((get_directories tables knowledge_id parent_id).find? (fun directory =>
          decide (directory.2.name = name))).map (fun directory => some directory.1)) := by
  induction names generalizing start with
  | nil =>
    simp only [List.nil_append, Knowledge.walkDown, Option.bind_some]
    cases (get_directories tables knowledge_id start).find? (fun directory =>
      decide (directory.2.name = name)) <;> rfl
  | cons part rest ih =>
    simp only [List.cons_append, Knowledge.walkDown]
    cases (get_directories tables knowledge_id start).find? (fun directory =>
      decide (directory.2.name = part)) with
    | none => rfl
    | some found => exact ih (some found.1)

omit set inside in
theorem walkDown_root {names : List String}
    (walked : Knowledge.walkDown tables knowledge_id names none = some none) : names = [] := by
  rcases List.eq_nil_or_concat' names with none_left | ⟨before, name, rfl⟩
  · exact none_left
  · rw [walkDown_concat] at walked
    obtain ⟨_, _, last⟩ := Option.bind_eq_some_iff.mp walked
    obtain ⟨_, _, lost⟩ := Option.map_eq_some_iff.mp last
    cases lost

omit set inside in
theorem filter_real {parent_id : Option String} (real : parent_id ≠ some "") :
    parent_id.filter (fun id => decide (id ≠ "")) = parent_id := by
  cases parent_id with
  | none => rfl
  | some parent => rw [Option.filter_some, if_pos (by simpa using real)]

omit inside in
theorem find_directory {parent_id : Option String} {name : String} {id : String}
    (real : parent_id ≠ some "") :
    (∃ directory, (get_directories tables knowledge_id parent_id).find? (fun directory =>
        decide (directory.2.name = name)) = some directory ∧ directory.1 = id) ↔
      ∃ row, (get_all_directories tables knowledge_id).lookup id = some row ∧
        row.parent_id = parent_id ∧ row.name = name := by
  have filtered := filter_real real
  constructor
  · rintro ⟨⟨_, row⟩, search, rfl⟩
    obtain ⟨stored, here, above⟩ := Knowledge.mem_get_directories.mp (List.mem_of_find?_eq_some search)
    exact ⟨row, lookup_dirs.mpr ⟨stored, here⟩, above.trans filtered,
      of_decide_eq_true (List.find?_some search :)⟩
  · rintro ⟨row, found, above, named⟩
    obtain ⟨stored, here⟩ := lookup_dirs.mp found
    have listed : (id, row) ∈ get_directories tables knowledge_id parent_id :=
      Knowledge.mem_get_directories.mpr ⟨stored, here, above.trans filtered.symm⟩
    cases search : (get_directories tables knowledge_id parent_id).find? (fun directory =>
        decide (directory.2.name = name)) with
    | none => exact absurd (decide_eq_true named) (List.find?_eq_none.mp search _ listed)
    | some directory =>
      refine ⟨directory, rfl, ?_⟩
      obtain ⟨stored_other, here_other, above_other⟩ :=
        Knowledge.mem_get_directories.mp (List.mem_of_find?_eq_some search)
      have same_name : directory.2.name = name := of_decide_eq_true (List.find?_some search :)
      have same : directory.2 = row := by
        obtain ⟨_, kb, parent, label⟩ := directory
        cases row
        simp only at *
        rw [here_other, here, above_other, filtered, above, same_name, named]
      exact set.siblings _ id row (same ▸ stored_other) stored here

theorem walkDown_iff {names : List String} {id : String} :
    Knowledge.walkDown tables knowledge_id names none = some (some id) ↔
      TreeNames (get_all_directories tables knowledge_id) id names := by
  induction names using List.reverseRecOn generalizing id with
  | nil => exact iff_of_false (by simp [Knowledge.walkDown]) (fun named => named.ne_nil rfl)
  | append_singleton before name ih =>
    rw [walkDown_concat, Option.bind_eq_some_iff]
    constructor
    · rintro ⟨parent_id, climbs, last⟩
      obtain ⟨directory, search, same⟩ := Option.map_eq_some_iff.mp last
      have real : parent_id ≠ some "" := by
        rintro rfl
        exact set.generated (ih.mp climbs).belongs
      obtain ⟨row, found, above, rfl⟩ := (find_directory set real).mp
        ⟨directory, search, Option.some.inj same⟩
      have known := (parentOf_of_inside set inside found).trans above
      cases parent_id with
      | none =>
        obtain rfl := walkDown_root climbs
        exact .top found known
      | some parent => exact .inside found known (ih.mp climbs)
    · intro named
      generalize shown : before ++ [name] = whole at named
      cases named with
      | @top _ row found outside =>
        obtain ⟨rfl, same⟩ := List.append_eq_singleton_iff.mp shown |>.resolve_right (by simp)
        obtain ⟨directory, search, rfl⟩ := (find_directory set (by simp)).mpr ⟨row, found,
          (parentOf_of_inside set inside found).symm.trans outside, (List.singleton_inj.mp same).symm⟩
        exact ⟨none, rfl, by rw [search]; rfl⟩
      | @inside _ row parent names found above rest =>
        obtain ⟨rfl, last⟩ := List.append_inj' shown rfl
        have real : some parent ≠ some "" := by
          intro empty
          exact set.generated (Option.some.inj empty ▸ rest.belongs)
        obtain ⟨directory, search, rfl⟩ := (find_directory set real).mpr ⟨row, found,
          (parentOf_of_inside set inside found).symm.trans above, (List.singleton_inj.mp last).symm⟩
        exact ⟨some parent, ih.mpr rest, by rw [search]; rfl⟩

omit set inside in
theorem segments_eq (path : String) :
    Knowledge.segments path = splitPath (stripChar '/' path) := by
  rw [Knowledge.segments, splitPath, stripChar, String.toList_ofList]

theorem resolve_dir_path_iff {path id : String} :
    resolve_dir_path tables path knowledge_id = some id ↔
      TreeNames (get_all_directories tables knowledge_id) id (splitPath (stripChar '/' path)) := by
  rw [resolve_dir_path, segments_eq, Option.join_eq_some_iff]
  exact walkDown_iff set inside

variable {tree : DirectoryTree} (known : Known tables knowledge_id tree.dir_id_to_path)
  (all : ∀ id, Belongs tables knowledge_id id → id ∈ tree.dir_id_to_path.keys)
  (inverted : tree.path_to_dir_id = tree.dir_id_to_path.entries.foldl (fun path_to_dir_id entry =>
    path_to_dir_id.set entry.2 entry.1) Dict.empty)

include known all inverted

theorem resolve_path_iff {path id : String} :
    resolve_path path tree = some id ↔
      TreeNames (get_all_directories tables knowledge_id) id (splitPath (stripChar '/' path)) := by
  have path_of : ∀ {entry : String × String}, entry ∈ tree.dir_id_to_path.entries →
      (entry.2 = stripChar '/' path ↔ TreeNames (get_all_directories tables knowledge_id) entry.1
        (splitPath (stripChar '/' path))) := by
    intro entry member
    obtain ⟨names, named, same⟩ := known entry.1 entry.2 (Dict.mem_entries_iff.mp member)
    rw [same]
    constructor
    · intro equal
      rwa [← equal, named.splitPath_joinPath set]
    · intro again
      rw [named.functional again, Knowledge.joinPath_splitPath]
  rw [resolve_path, inverted, Dict.get?_foldl_set, Dict.get?_empty, Option.or_none,
    Option.map_eq_some_iff]
  constructor
  · rintro ⟨entry, search, rfl⟩
    have member : entry ∈ tree.dir_id_to_path.entries := by
      simpa using List.mem_of_find?_eq_some search
    exact (path_of member).mp (of_decide_eq_true (List.find?_some search :))
  · intro named
    obtain ⟨found, read⟩ := Dict.exists_of_mem_keys (all id named.belongs)
    have listed : (id, found) ∈ tree.dir_id_to_path.entries := Dict.mem_entries_iff.mpr read
    cases search : tree.dir_id_to_path.entries.reverse.find? (fun entry =>
        decide (entry.2 = stripChar '/' path)) with
    | none =>
      exact absurd (decide_eq_true ((path_of listed).mpr named))
        (List.find?_eq_none.mp search _ (List.mem_reverse.mpr listed))
    | some entry =>
      have member : entry ∈ tree.dir_id_to_path.entries := by
        simpa using List.mem_of_find?_eq_some search
      have other := (path_of member).mp (of_decide_eq_true (List.find?_some search :))
      exact ⟨entry, rfl, other.injective set inside named⟩

theorem resolvers_same (path : String) :
    resolve_dir_path tables path knowledge_id = resolve_path path tree := by
  refine Option.ext (fun id => ?_)
  rw [resolve_dir_path_iff set inside, resolve_path_iff set inside known all inverted]

theorem path_found {id : String} (belongs : Belongs tables knowledge_id id) :
    ∃ path, tree.dir_id_to_path.get? id = some path ∧
      resolve_dir_path tables path knowledge_id = some id ∧ resolve_path path tree = some id := by
  obtain ⟨path, read⟩ := Dict.exists_of_mem_keys (all id belongs)
  obtain ⟨names, named, rfl⟩ := known id path read
  have plain : splitPath (stripChar '/' (joinPath names)) = names := by
    rw [← segments_eq]
    exact Knowledge.segments_joinPath (named.ok set) named.ne_nil
  have found : resolve_dir_path tables (joinPath names) knowledge_id = some id := by
    rwa [resolve_dir_path_iff set inside, plain]
  exact ⟨_, read, found, (resolvers_same set inside known all inverted _).symm.trans found⟩

end Closed

theorem reached_iff {start id : String} (belongs : Belongs tables knowledge_id start) :
    ReflTransGen (Reach.Linked ((get_all_directories tables knowledge_id).map (fun d =>
        (d.1, d.2.parent_id)))) start id ↔
      ReflTransGen (Reach.Below (fun parent => (get_directories tables knowledge_id
        (some parent)).map Prod.fst)) start id := by
  have linked_iff : ∀ parent child, Reach.Linked ((get_all_directories tables knowledge_id).map
      (fun d => (d.1, d.2.parent_id))) parent child ↔
        ∃ row, tables.knowledge_directory.get? child = some row ∧ row.knowledge_id = knowledge_id ∧
          row.parent_id = some parent := by
    intro parent child
    rw [Reach.Linked, List.mem_map]
    constructor
    · rintro ⟨⟨id, row⟩, listed, same⟩
      obtain ⟨rfl, above⟩ := Prod.ext_iff.mp same
      obtain ⟨stored, here⟩ := Knowledge.mem_get_all_directories.mp listed
      exact ⟨row, stored, here, above⟩
    · rintro ⟨row, stored, here, above⟩
      exact ⟨(child, row), Knowledge.mem_get_all_directories.mpr ⟨stored, here⟩, by rw [above]⟩
  have below_iff : ∀ parent child, parent ≠ "" → (Reach.Below (fun parent =>
      (get_directories tables knowledge_id (some parent)).map Prod.fst) parent child ↔
        ∃ row, tables.knowledge_directory.get? child = some row ∧ row.knowledge_id = knowledge_id ∧
          row.parent_id = some parent) := by
    intro parent child real
    have filtered := @filter_real (some parent) (fun empty => real (Option.some.inj empty))
    rw [Reach.Below, List.mem_map]
    constructor
    · rintro ⟨⟨_, row⟩, listed, rfl⟩
      obtain ⟨stored, here, above⟩ := Knowledge.mem_get_directories.mp listed
      exact ⟨row, stored, here, above.trans filtered⟩
    · rintro ⟨row, stored, here, above⟩
      have listed : (child, row) ∈ get_directories tables knowledge_id (some parent) :=
        Knowledge.mem_get_directories.mpr ⟨stored, here, above.trans filtered.symm⟩
      exact ⟨(child, row), listed, rfl⟩
  have real : ∀ {id : String}, Belongs tables knowledge_id id → id ≠ "" :=
    fun belongs empty => set.generated (empty ▸ belongs)
  constructor
  · intro path
    suffices both : ReflTransGen (Reach.Below (fun parent => (get_directories tables knowledge_id
        (some parent)).map Prod.fst)) start id ∧ Belongs tables knowledge_id id from both.1
    induction path with
    | refl => exact ⟨.refl, belongs⟩
    | tail _ step ih =>
      have child := (linked_iff _ _).mp step
      have below := (below_iff _ _ (real ih.2)).mpr child
      obtain ⟨row, stored, here, _⟩ := child
      exact ⟨ih.1.tail below, row, stored, here⟩
  · intro path
    suffices both : ReflTransGen (Reach.Linked ((get_all_directories tables knowledge_id).map
        (fun d => (d.1, d.2.parent_id)))) start id ∧ Belongs tables knowledge_id id from both.1
    induction path with
    | refl => exact ⟨.refl, belongs⟩
    | tail _ step ih =>
      have child := (below_iff _ _ (real ih.2)).mp step
      have linked := (linked_iff _ _).mpr child
      obtain ⟨row, stored, here, _⟩ := child
      exact ⟨ih.1.tail linked, row, stored, here⟩

omit set in
theorem descend_eq (fuel : Nat) (result queue : List String) :
    descend tables knowledge_id fuel result queue =
      Reach.worklist (fun parent => (get_directories tables knowledge_id (some parent)).map Prod.fst)
        fuel result queue := by
  induction fuel generalizing result queue with
  | zero => rfl
  | succ fuel ih =>
    rw [descend, Reach.worklist]
    cases queue.getLast? with
    | none => rfl
    | some parent => exact ih _ _

omit set in
theorem mem_descendants {start id : String} :
    id ∈ get_descendant_dir_ids tables start knowledge_id ↔
      ReflTransGen (Reach.Below (fun parent => (get_directories tables knowledge_id
        (some parent)).map Prod.fst)) start id := by
  rw [get_descendant_dir_ids, descend_eq]
  refine @Reach.mem_worklist _ _ _ start ((get_all_directories tables knowledge_id).map Prod.fst) ?_ ?_
    _ _ _ (Reach.Working.begin _ start) (fun node member => ?_) ?_ id
  · intro parent
    have sorted := (List.mergeSort_perm (tables.knowledge_directory.entries.filter (fun row =>
      decide (row.2.knowledge_id = knowledge_id) && decide (row.2.parent_id =
        (some parent).filter (fun id => decide (id ≠ ""))))) Knowledge.byName).map Prod.fst
    refine sorted.nodup_iff.mpr ?_
    exact tables.knowledge_directory.keys_nodup.sublist (List.filter_sublist.map Prod.fst)
  · intro parent child member
    obtain ⟨⟨_, row⟩, listed, rfl⟩ := List.mem_map.mp member
    obtain ⟨stored, here, _⟩ := Knowledge.mem_get_directories.mp listed
    exact mem_dirs.mpr ⟨row, stored, here⟩
  · rw [List.mem_singleton.mp member]
    exact List.mem_cons_self
  · simp only [List.length_cons, List.length_nil, List.length_map]
    omega

theorem files_under_dir {tree : DirectoryTree}
    (dirs : tree.dirs = get_all_directories tables knowledge_id) {id : String}
    (belongs : Belongs tables knowledge_id id) :
    get_files_under_dir tree id = tree.files.filter (fun placed =>
      placed.2.any (fun directory_id =>
        decide (directory_id ∈ get_descendant_dir_ids tables id knowledge_id))) := by
  rw [get_files_under_dir, dirs]
  refine List.filter_congr (fun placed _ => ?_)
  congr 1
  funext directory_id
  refine decide_eq_decide.mpr ?_
  rw [mem_descendants, ← reached_iff set belongs]
  refine Reach.mem_passes (List.nodup_singleton id) List.mem_cons_self ?_ ?_ ?_
  · intro node member
    rw [List.mem_singleton.mp member]
  · intro node member
    rw [List.mem_singleton.mp member]
    exact List.mem_cons_self
  · simp

theorem inside_of_found {tree : DirectoryTree} (known : Known tables knowledge_id tree.dir_id_to_path)
    (found : ∀ id, Belongs tables knowledge_id id → ∃ path, tree.dir_id_to_path.get? id = some path ∧
      resolve_dir_path tables path knowledge_id = some id) :
    ParentsInside tables knowledge_id := by
  intro id row stored here parent_id above
  by_contra outside
  have cut : parentOf (get_all_directories tables knowledge_id) row = none := by
    refine Option.eq_none_iff_forall_ne_some.mpr (fun other named => ?_)
    obtain ⟨same, _, belongs⟩ := parentOf_eq_some.mp named
    exact outside (Option.some.inj (above.symm.trans same) ▸ belongs)
  -- the path in the tree is the name alone, which the other resolver looks up at the root
  obtain ⟨path, read, resolved⟩ := found id ⟨row, stored, here⟩
  obtain ⟨names, named, rfl⟩ := known id path read
  obtain rfl := named.functional (.top (lookup_dirs.mpr ⟨stored, here⟩) cut)
  rw [resolve_dir_path, Knowledge.segments_joinPath (named.ok set) named.ne_nil,
    Option.join_eq_some_iff] at resolved
  have rooted := (walkDown_concat [] row.name none).symm.trans resolved
  simp only [Knowledge.walkDown, Option.bind_some] at rooted
  obtain ⟨directory, search, same⟩ := Option.map_eq_some_iff.mp rooted
  obtain ⟨stored_again, _, top⟩ :=
    Knowledge.mem_get_directories.mp (List.mem_of_find?_eq_some search)
  rw [Option.some.inj same, stored] at stored_again
  rw [← Option.some.inj stored_again, above] at top
  cases top

theorem inside_of_agree {tree : DirectoryTree}
    (built : build_directory_tree tables knowledge_id = .ok tree)
    (agree : ResolversAgree tables knowledge_id tree) : ParentsInside tables knowledge_id := by
  obtain ⟨other, built_again, _, known, _⟩ := build_directory_tree_spec set
  obtain rfl := Except.ok.inj (built.symm.trans built_again)
  refine inside_of_found set known (fun id belongs => ?_)
  obtain ⟨path, read, resolved, _⟩ := agree.found id belongs
  exact ⟨path, read, resolved⟩

/-- The tree of every knowledge base is built, and its resolvers agree exactly when every parent is
a directory of the knowledge base. -/
theorem resolvers_agree_iff :
    (∃ tree, build_directory_tree tables knowledge_id = .ok tree ∧
      ResolversAgree tables knowledge_id tree) ↔ ParentsInside tables knowledge_id := by
  constructor
  · rintro ⟨tree, built, agree⟩
    exact inside_of_agree set built agree
  · intro inside
    obtain ⟨tree, built, dirs, known, all, inverted⟩ := build_directory_tree_spec set
    exact ⟨tree, built, fun id belongs => path_found set inside known all inverted belongs,
      resolvers_same set inside known all inverted, fun id belongs => files_under_dir set dirs belongs⟩

end Set

def oneDirectory (parent_id : Option String) : Tables where
  file := .empty
  knowledge_directory := .ofEntries [("c", ⟨"kb", parent_id, "drafts"⟩)]
  knowledge_file := .empty

theorem get?_oneDirectory {parent_id : Option String} {id : String} {row : KnowledgeDirectory}
    (found : (oneDirectory parent_id).knowledge_directory.get? id = some row) :
    id = "c" ∧ row = ⟨"kb", parent_id, "drafts"⟩ := by
  have listed : (id, row) ∈ [("c", (⟨"kb", parent_id, "drafts"⟩ : KnowledgeDirectory))] :=
    Dict.mem_entries_iff.mpr found
  exact Prod.ext_iff.mp (List.mem_singleton.mp listed)

theorem oneDirectory_set {parent_id : Option String} (other : parent_id ≠ some "c") :
    DirectorySet (oneDirectory parent_id) "kb" where
  generated := by
    rintro ⟨row, found, _⟩
    exact absurd (get?_oneDirectory found).1 (by decide)
  acyclic id _ cycle := by
    obtain ⟨_, _, last⟩ := TransGen.tail'_iff.mp cycle
    obtain ⟨_, first, _⟩ := TransGen.head'_iff.mp cycle
    obtain ⟨start, found_start, _⟩ := Knowledge.edge_iff.mp first
    obtain ⟨row, found, above⟩ := Knowledge.edge_iff.mp last
    rw [(get?_oneDirectory found).2, (get?_oneDirectory found_start).1] at above
    exact other above
  names id row found _ := by
    have ok : NameOk "drafts" := ⟨by decide, by decide⟩
    rwa [(get?_oneDirectory found).2]
  siblings id other row found again _ := by
    rw [(get?_oneDirectory found).1, (get?_oneDirectory again).1]

/-- A directory at the root is found both ways. -/
theorem root_resolvers_agree : ∃ tree, build_directory_tree (oneDirectory none) "kb" = .ok tree ∧
    ResolversAgree (oneDirectory none) "kb" tree :=
  (resolvers_agree_iff (oneDirectory_set (by decide))).mpr (by
    intro id row found _ parent_id above
    rw [(get?_oneDirectory found).2] at above
    cases above)

/-- A directory whose parent was deleted is a root of the tree, and not found from the root. -/
theorem orphan_resolved_once : ¬ ∀ tables knowledge_id, DirectorySet tables knowledge_id →
    ∃ tree, build_directory_tree tables knowledge_id = .ok tree ∧
      ResolversAgree tables knowledge_id tree := by
  intro agrees
  have set := oneDirectory_set (by decide : some "p" ≠ some "c")
  obtain ⟨tree, built, agree⟩ := agrees _ _ set
  obtain ⟨row, found, _⟩ := inside_of_agree set built agree "c" ⟨"kb", some "p", "drafts"⟩ rfl rfl
    "p" rfl
  exact absurd (get?_oneDirectory found).1 (by decide)

end OpenWebui.KnowledgeFs
