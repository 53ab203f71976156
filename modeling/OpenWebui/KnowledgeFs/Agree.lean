import OpenWebui.KnowledgeFs.Resolve

/-! What is the same in two states that are the same as far as the user and the model may read. -/

namespace OpenWebui.KnowledgeFs

open AccessGrants (User)

section Bases

variable {platform : Platform} {library : Library} {user : User}
  {model_knowledge : List AttachedItem}

theorem has_access_of_listed {kb : String × KnowledgeRow}
    (listed : kb ∈ search_knowledge_bases library user) :
    library.knowledge.get? kb.1 = some kb.2 ∧ has_access library user kb.1 kb.2 = true := by
  obtain ⟨stored, kept⟩ := List.mem_filter.mp (List.mem_mergeSort.mp (List.mem_of_mem_take listed))
  refine ⟨Dict.mem_entries_iff.mp stored, ?_⟩
  obtain ⟨_, allowed⟩ := (AccessGrants.mem_has_permission_filter_iff _ _ _ _ _ _ (.inl rfl) _).mp
    (of_decide_eq_true kept)
  rw [has_access, Bool.or_eq_true, Bool.or_eq_true, AccessGrants.has_access_iff]
  rcases allowed with owner | granted
  · exact .inl (.inr (decide_eq_true (Option.some.inj owner)))
  · exact .inr granted

theorem mem_readable {kb : KnowledgeBase} {kb_ids : List String} :
    kb ∈ readable library user kb_ids ↔ kb.1 ∈ kb_ids ∧ ∃ row,
      library.knowledge.get? kb.1 = some row ∧ has_access library user kb.1 row = true ∧
        knowledgeBase (kb.1, row) = kb := by
  rw [readable, List.mem_filterMap]
  constructor
  · rintro ⟨kb_id, member, read⟩
    obtain ⟨row, found, kept⟩ := Option.bind_eq_some_iff.mp read
    split at kept
    · rename_i access
      obtain rfl := Option.some.inj kept
      exact ⟨member, row, found, access, rfl⟩
    · cases kept
  · rintro ⟨member, row, found, access, same⟩
    exact ⟨kb.1, member, by rw [found, Option.bind_some, if_pos access, same]⟩

theorem bases_of_mem {kb : KnowledgeBase}
    (member : kb ∈ get_accessible_kb_ids platform library user model_knowledge none) :
    get_accessible_kb_ids platform library user model_knowledge (some kb.1) =
      if kb.1 = "" then get_accessible_kb_ids platform library user model_knowledge none
      else [kb] := by
  split
  · rename_i unnamed
    rw [unnamed]
    rfl
  rename_i named
  have alone : ∀ row, library.knowledge.get? kb.1 = some row →
      has_access library user kb.1 row = true → knowledgeBase (kb.1, row) = kb →
        readable library user [kb.1] = [kb] := by
    intro row found access same
    simp [readable, found, access, same]
  have scope : (some kb.1).filter (fun id => decide (id ≠ "")) = some kb.1 := by simp [named]
  simp only [get_accessible_kb_ids, Option.filter_none] at member
  simp only [get_accessible_kb_ids, scope]
  split at member
  · rename_i attached
    obtain ⟨inside, row, found, access, same⟩ := mem_readable.mp member
    rw [if_pos attached, if_pos ((platform.mem_setOrder _ _).mp inside)]
    exact alone row found access same
  · rename_i unattached
    obtain ⟨entry, listed, same⟩ := List.mem_map.mp member
    obtain ⟨found, access⟩ := has_access_of_listed listed
    rw [if_neg unattached]
    subst same
    exact alone entry.2 found access rfl

end Bases

section Agree

variable {platform : Platform} {user : User} {model_knowledge : List AttachedItem}
  {first second : Library} (agree : Agree platform user model_knowledge first second)

include agree

theorem Agree.base {kb : KnowledgeBase}
    (member : kb ∈ get_accessible_kb_ids platform first user model_knowledge none) :
    get_accessible_kb_ids platform first user model_knowledge (some kb.1) =
      get_accessible_kb_ids platform second user model_knowledge (some kb.1) := by
  rw [bases_of_mem member, bases_of_mem (agree.bases ▸ member), agree.bases]

section Base

variable {kb : KnowledgeBase}
  (member : kb ∈ get_accessible_kb_ids platform first user model_knowledge none)

include member

theorem Agree.placed : Knowledge.get_files_with_directory_ids first.tables kb.1 =
    Knowledge.get_files_with_directory_ids second.tables kb.1 := by
  have split : ∀ tables : Knowledge.Tables, Knowledge.get_files_with_directory_ids tables kb.1 =
      (tables.knowledge_file.entries.filter (fun row => decide (row.1.1 = kb.1))).filterMap
        (fun row => (tables.file.get? row.1.2).map (fun file => ((row.1.2, file), row.2))) := by
    intro tables
    rw [List.filterMap_filter, Knowledge.get_files_with_directory_ids]
    refine List.filterMap_congr ?_
    intro row _
    simp
  rw [split, split, ← agree.links kb member]
  refine List.filterMap_congr ?_
  intro row kept
  obtain ⟨stored, here⟩ := List.mem_filter.mp kept
  have linked : (kb.1, row.1.2) ∈ first.tables.knowledge_file.keys := by
    rw [← of_decide_eq_true here]
    exact Dict.mem_keys_of_get? (Dict.mem_entries_iff.mp stored)
  rw [agree.files kb member row.1.2 linked]

theorem Agree.filesOf : filesOf first kb = filesOf second kb := by
  rw [KnowledgeFs.filesOf, KnowledgeFs.filesOf, agree.placed member]

theorem Agree.all_directories : Knowledge.get_all_directories first.tables kb.1 =
    Knowledge.get_all_directories second.tables kb.1 := by
  rw [Knowledge.get_all_directories, Knowledge.get_all_directories, agree.directories kb member]

theorem Agree.get_directories (parent_id : Option String) :
    Knowledge.get_directories first.tables kb.1 parent_id =
      Knowledge.get_directories second.tables kb.1 parent_id := by
  have split : ∀ tables : Knowledge.Tables, Knowledge.get_directories tables kb.1 parent_id =
      ((tables.knowledge_directory.entries.filter (fun row =>
        decide (row.2.knowledge_id = kb.1))).filter (fun row =>
          decide (row.2.parent_id = parent_id.filter (fun id => decide (id ≠ ""))))).mergeSort
            Knowledge.byName := by
    intro tables
    rw [List.filter_filter, Knowledge.get_directories]
    congr 2
    funext row
    exact Bool.and_comm _ _
  rw [split, split, agree.directories kb member]

theorem Agree.resolve_dir_path (path : String) :
    Knowledge.resolve_dir_path first.tables path kb.1 =
      Knowledge.resolve_dir_path second.tables path kb.1 := by
  have walk : ∀ names current_parent, Knowledge.walkDown first.tables kb.1 names current_parent =
      Knowledge.walkDown second.tables kb.1 names current_parent := by
    intro names
    induction names with
    | nil => exact fun _ => rfl
    | cons part rest ih =>
      intro current_parent
      simp only [Knowledge.walkDown, agree.get_directories member, ih]
  rw [Knowledge.resolve_dir_path, Knowledge.resolve_dir_path, walk]

theorem Agree.descendants (dir_id : String) :
    get_descendant_dir_ids first.tables dir_id kb.1 =
      get_descendant_dir_ids second.tables dir_id kb.1 := by
  have walk : ∀ fuel result queue, descend first.tables kb.1 fuel result queue =
      descend second.tables kb.1 fuel result queue := by
    intro fuel
    induction fuel with
    | zero => exact fun _ _ => rfl
    | succ fuel ih =>
      intro result queue
      simp only [descend, agree.get_directories member, ih]
  rw [get_descendant_dir_ids, get_descendant_dir_ids, agree.all_directories member, walk]

theorem Agree.build_directory_tree : build_directory_tree first.tables kb.1 =
    build_directory_tree second.tables kb.1 := by
  rw [KnowledgeFs.build_directory_tree, KnowledgeFs.build_directory_tree,
    agree.all_directories member, agree.placed member]

end Base

theorem Agree.attachedFiles : attachedFiles platform first model_knowledge =
    attachedFiles platform second model_knowledge := by
  refine List.filterMap_congr ?_
  intro fid member
  rw [agree.attached fid ((platform.mem_setOrder _ _).mp member)]

theorem Agree.accessible_files :
    get_accessible_files platform first user model_knowledge none =
      get_accessible_files platform second user model_knowledge none := by
  rw [get_accessible_files, get_accessible_files, ← agree.bases, agree.attachedFiles]
  congr 1
  exact List.flatMap_congr (fun kb member => agree.filesOf member)

theorem Agree.accessible_files_of {kb : KnowledgeBase}
    (member : kb ∈ get_accessible_kb_ids platform first user model_knowledge none) :
    get_accessible_files platform first user model_knowledge (some kb.1) =
      get_accessible_files platform second user model_knowledge (some kb.1) := by
  rw [get_accessible_files, get_accessible_files, ← agree.base member, agree.attachedFiles]
  congr 1
  refine List.flatMap_congr (fun other inside => agree.filesOf ?_)
  rw [bases_of_mem member] at inside
  split at inside
  · exact inside
  · exact List.mem_singleton.mp inside ▸ member

theorem Agree.extracted {fi : FileInfo}
    (member : fi ∈ get_accessible_files platform first user model_knowledge none) :
    extracted first fi.id = extracted second fi.id := by
  have same : first.tables.file.get? fi.id = second.tables.file.get? fi.id := by
    rcases List.mem_append.mp member with inside | attached
    · obtain ⟨kb, readable, member⟩ := List.mem_flatMap.mp inside
      obtain ⟨placed, listed, rfl⟩ := List.mem_map.mp member
      exact agree.files kb readable placed.1.1
        (Dict.mem_keys_of_get? (Knowledge.mem_get_files.mp listed).1)
    · obtain ⟨fid, listed, read⟩ := List.mem_filterMap.mp attached
      obtain ⟨file, _, rfl⟩ := Option.map_eq_some_iff.mp read
      exact agree.attached fid ((platform.mem_setOrder _ _).mp listed)
  rw [KnowledgeFs.extracted, KnowledgeFs.extracted, same]

omit agree in
theorem mem_kbIdsOf {kb_id : String}
    (member : kb_id ∈ kbIdsOf platform
      (get_accessible_files platform first user model_knowledge none)) :
    ∃ kb ∈ get_accessible_kb_ids platform first user model_knowledge none, kb.1 = kb_id := by
  rw [kbIdsOf, platform.mem_setOrder, List.mem_filter, List.mem_filterMap] at member
  obtain ⟨⟨fi, listed, here⟩, _⟩ := member
  rcases List.mem_append.mp listed with inside | attached
  · obtain ⟨kb, readable, member⟩ := List.mem_flatMap.mp inside
    obtain ⟨placed, _, rfl⟩ := List.mem_map.mp member
    exact ⟨kb, readable, Option.some.inj here⟩
  · obtain ⟨fid, _, read⟩ := List.mem_filterMap.mp attached
    obtain ⟨file, _, rfl⟩ := Option.map_eq_some_iff.mp read
    cases here

theorem Agree.single {matched : List FileInfo}
    (inside : ∀ fi ∈ matched, fi ∈ get_accessible_files platform first user model_knowledge none) :
    single first matched = single second matched := by
  rcases matched with _ | ⟨fi, _ | ⟨_, _⟩⟩
  · rfl
  · rw [KnowledgeFs.single, KnowledgeFs.single, agree.extracted (inside fi (by simp))]
  · rfl

theorem Agree.findAccessible (ref : String) :
    findAccessible platform first ref
        (get_accessible_files platform first user model_knowledge none) =
      findAccessible platform second ref
        (get_accessible_files platform first user model_knowledge none) := by
  have inside : ∀ keep : FileInfo → Bool, ∀ fi ∈
      (get_accessible_files platform first user model_knowledge none).filter keep,
        fi ∈ get_accessible_files platform first user model_knowledge none :=
    fun keep fi member => List.mem_of_mem_filter member
  rw [KnowledgeFs.findAccessible, KnowledgeFs.findAccessible]
  congr 1
  · rw [findByPath, findByPath]
    refine Option.bind_congr ?_
    intro split _
    rw [← List.head?_filterMap, ← List.head?_filterMap]
    refine congrArg List.head? (List.filterMap_congr ?_)
    intro kb_id member
    obtain ⟨kb, readable, rfl⟩ := mem_kbIdsOf member
    rw [agree.resolve_dir_path readable]
    refine Option.bind_congr ?_
    intro dir_id _
    exact agree.single (inside _)
  · rw [findByName, findByName]
    simp only [agree.single (inside _)]

/-- A reference that a file has as its id that may not be read and has extracted data. -/
def Hidden (platform : Platform) (user : User) (model_knowledge : List AttachedItem)
    (library : Library) (ref : String) : Prop :=
  (KnowledgeFs.extracted library ref).isSome = true ∧
    ref ∉ (get_accessible_files platform library user model_knowledge none).map (fun fi => fi.id)

theorem Agree.resolve_file_iff (ref : String) :
    resolve_file platform first user model_knowledge ref =
        resolve_file platform second user model_knowledge ref ↔
      (KnowledgeFs.findAccessible platform first ref
          (get_accessible_files platform first user model_knowledge none) ≠ none →
        (Hidden platform user model_knowledge first ref ↔
          Hidden platform user model_knowledge second ref)) := by
  have found := agree.findAccessible ref
  have files := agree.accessible_files
  by_cases here : ref ∈
      (get_accessible_files platform first user model_knowledge none).map (fun fi => fi.id)
  · have visible : ∀ library, ref ∈ (get_accessible_files platform library user model_knowledge
        none).map (fun fi => fi.id) → ¬ Hidden platform user model_knowledge library ref :=
      fun library member hidden => hidden.2 member
    obtain ⟨fi, member, rfl⟩ := List.mem_map.mp here
    refine iff_of_true ?_ (fun _ => iff_of_false (visible first here) (visible second (files ▸ here)))
    rw [resolve_file, resolve_file, ← agree.extracted member, ← files, ← found]
  · have hidden_iff : ∀ library, get_accessible_files platform library user model_knowledge none =
        get_accessible_files platform first user model_knowledge none →
          (Hidden platform user model_knowledge library ref ↔
            (KnowledgeFs.extracted library ref).isSome = true) := by
      intro library same
      rw [Hidden, same]
      exact and_iff_left here
    have resolved : ∀ library, get_accessible_files platform library user model_knowledge none =
        get_accessible_files platform first user model_knowledge none →
          resolve_file platform library user model_knowledge ref =
            if (KnowledgeFs.extracted library ref).isSome = true then none
            else KnowledgeFs.findAccessible platform library ref
              (get_accessible_files platform first user model_knowledge none) := by
      intro library same
      rw [resolve_file, same]
      cases KnowledgeFs.extracted library ref with
      | none => rfl
      | some found => exact if_neg here
    rw [resolved first rfl, resolved second files.symm, hidden_iff first rfl,
      hidden_iff second files.symm, ← found]
    cases KnowledgeFs.findAccessible platform first ref
      (get_accessible_files platform first user model_knowledge none) with
    | none => simp
    | some value =>
      cases (KnowledgeFs.extracted first ref).isSome <;>
        cases (KnowledgeFs.extracted second ref).isSome <;> simp

end Agree

end OpenWebui.KnowledgeFs
