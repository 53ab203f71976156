import OpenWebui.Folders.Shared

/-! What the listing of shared folders contains, and when it agrees with the checks of access. -/

namespace OpenWebui.Folders

open AccessGrants

section Roots

variable {db : FolderDatabase} {user_name : String → Option String} {user_id : String}

def othersFolder (db : FolderDatabase) (user_id id : String) : Option FolderModel :=
  (get_folder_by_id db.folder id).filter (fun folder => decide (folder.2.user_id ≠ user_id))

theorem othersFolder_iff {id : String} {found : FolderModel} :
    othersFolder db user_id id = some found ↔
      found.1 = id ∧ db.folder.get? id = some found.2 ∧ found.2.user_id ≠ user_id := by
  rw [othersFolder, Option.filter_eq_some_iff, decide_eq_true_iff, get_folder_by_id,
    Option.map_eq_some_iff]
  constructor
  · rintro ⟨⟨row, stored, rfl⟩, other⟩
    exact ⟨rfl, stored, other⟩
  · rintro ⟨rfl, stored, other⟩
    exact ⟨⟨found.2, stored, rfl⟩, other⟩

def SharedFolder.shown (shared : SharedFolder) : FolderModel × String :=
  (shared.folder, shared.permission)

theorem addShared_shown (state : List SharedFolder × Dict String String)
    (granted : String × String) :
    (addShared db user_name user_id state granted).1.map SharedFolder.shown =
      state.1.map SharedFolder.shown ++
        ((othersFolder db user_id granted.1).map (fun folder => (folder, granted.2))).toList := by
  unfold addShared othersFolder
  cases get_folder_by_id db.folder granted.1 with
  | none => simp
  | some folder =>
    by_cases own : folder.2.user_id = user_id
    · simp [own, Option.filter]
    · simp [own, Option.filter, SharedFolder.shown]

theorem foldl_addShared_shown (entries : List (String × String))
    (state : List SharedFolder × Dict String String) :
    (entries.foldl (addShared db user_name user_id) state).1.map SharedFolder.shown =
      state.1.map SharedFolder.shown ++ entries.filterMap (fun granted =>
        (othersFolder db user_id granted.1).map (fun folder => (folder, granted.2))) := by
  induction entries generalizing state with
  | nil => simp
  | cons granted rest ih =>
    rw [List.foldl_cons, ih, addShared_shown, List.filterMap_cons]
    cases othersFolder db user_id granted.1 <;> simp

def roots (db : FolderDatabase) (user_name : String → Option String) (user_id : String) :
    List SharedFolder × Dict String String :=
  (folderPerms db user_id).entries.foldl (addShared db user_name user_id) ([], Dict.empty)

theorem roots_shown : (roots db user_name user_id).1.map SharedFolder.shown =
    (folderPerms db user_id).entries.filterMap (fun granted =>
      (othersFolder db user_id granted.1).map (fun folder => (folder, granted.2))) := by
  rw [roots, foldl_addShared_shown, List.map_nil, List.nil_append]

theorem mem_roots_iff {found : FolderModel} {permission : String} :
    (∃ item ∈ (roots db user_name user_id).1, item.shown = (found, permission)) ↔
      (folderPerms db user_id).get? found.1 = some permission ∧
        db.folder.get? found.1 = some found.2 ∧ found.2.user_id ≠ user_id := by
  rw [← List.mem_map, roots_shown, List.mem_filterMap]
  constructor
  · rintro ⟨⟨id, given⟩, entry, shown⟩
    obtain ⟨folder, there, same⟩ := Option.map_eq_some_iff.mp shown
    obtain ⟨rfl, rfl⟩ := Prod.mk.inj same
    obtain ⟨rfl, stored, other⟩ := othersFolder_iff.mp there
    exact ⟨Dict.mem_entries_iff.mp entry, stored, other⟩
  · rintro ⟨given, stored, other⟩
    refine ⟨(found.1, permission), Dict.mem_entries_iff.mpr given, ?_⟩
    rw [othersFolder_iff.mpr ⟨rfl, stored, other⟩, Option.map_some]

theorem filterMap_sublist {α β κ : Type} {read : α → Option β} {key : β → κ} {name : α → κ}
    (same : ∀ entry item, read entry = some item → key item = name entry) (entries : List α) :
    List.Sublist ((entries.filterMap read).map key) (entries.map name) := by
  induction entries with
  | nil => exact List.Sublist.slnil
  | cons entry rest ih =>
    rw [List.filterMap_cons]
    cases found : read entry with
    | none => exact ih.cons _
    | some item => simpa [same entry item found] using ih

theorem roots_nodup : ((roots db user_name user_id).1.map SharedFolder.id).Nodup := by
  have ids : (roots db user_name user_id).1.map SharedFolder.id =
      ((roots db user_name user_id).1.map SharedFolder.shown).map (fun shown => shown.1.1) := by
    rw [List.map_map]
    rfl
  rw [ids, roots_shown]
  refine (filterMap_sublist ?_ _).nodup (folderPerms db user_id).keys_nodup
  intro granted shown given
  obtain ⟨folder, there, rfl⟩ := Option.map_eq_some_iff.mp given
  exact (othersFolder_iff.mp there).1

end Roots

theorem mem_foldlM_children {below : FolderModel → Option (List FolderModel)}
    {children start folders : List FolderModel}
    (done : children.foldlM (fun folders child =>
      (below child).map (fun deeper => folders ++ deeper ++ [child])) start = some folders) :
    (∀ child ∈ children, ∃ deeper, below child = some deeper) ∧
      ∀ found, found ∈ folders ↔ found ∈ start ∨
        ∃ child ∈ children, found = child ∨ ∃ deeper, below child = some deeper ∧ found ∈ deeper := by
  induction children generalizing start with
  | nil =>
    obtain rfl := Option.some.inj done
    simp
  | cons child rest ih =>
    rw [List.foldlM_cons] at done
    obtain ⟨next, step, later⟩ := Option.bind_eq_some_iff.mp done
    obtain ⟨deeper, stops, rfl⟩ := Option.map_eq_some_iff.mp step
    obtain ⟨others, collected⟩ := ih later
    refine ⟨?_, ?_⟩
    · intro other member
      rcases List.mem_cons.mp member with rfl | member
      · exact ⟨deeper, stops⟩
      · exact others other member
    · intro found
      simp [collected, stops, or_assoc, or_left_comm, or_comm]

theorem mem_getChildren_iff {folder : Dict String Folder} (alike : OwnedAlike folder) {fuel : Nat}
    {id : String} {row : Folder} (stored : folder.get? id = some row) {folders : List FolderModel}
    (done : getChildren folder row.user_id fuel id = some folders) (found : FolderModel) :
    found ∈ folders ↔ folder.get? found.1 = some found.2 ∧
      Relation.TransGen (links folder).Edge found.1 id := by
  induction fuel generalizing id row folders with
  | zero => cases done
  | succ fuel ih =>
    obtain ⟨stops, collected⟩ := mem_foldlM_children done
    rw [collected]
    constructor
    · rintro (none | ⟨child, member, here⟩)
      · exact absurd none List.not_mem_nil
      · obtain ⟨there, _, owner⟩ := mem_children member
        rcases here with rfl | ⟨deeper, found_deeper, inside⟩
        · exact ⟨there, .single (child_edge member)⟩
        · rw [← owner] at found_deeper
          obtain ⟨kept, path⟩ := (ih there found_deeper).mp inside
          exact ⟨kept, path.tail (child_edge member)⟩
    · rintro ⟨kept, path⟩
      obtain ⟨next, before, edge⟩ := Relation.TransGen.tail'_iff.mp path
      obtain ⟨child, there, named⟩ := edge_iff.mp edge
      have owner := alike next child id row there named stored
      have member : (next, child) ∈ get_folders_by_parent_id_and_user_id folder (some id) row.user_id :=
        mem_children_of there named owner
      refine Or.inr ⟨(next, child), member, ?_⟩
      rcases Relation.reflTransGen_iff_eq_or_transGen.mp before with same | longer
      · left
        rw [same] at there
        exact Prod.ext same.symm (Option.some.inj (kept.symm.trans there))
      · obtain ⟨deeper, found_deeper⟩ := stops _ member
        refine Or.inr ⟨deeper, found_deeper, ?_⟩
        rw [← owner] at found_deeper
        exact (ih there found_deeper).mpr ⟨kept, longer⟩

section Children

variable {db : FolderDatabase} {owner_cache folder_perms : Dict String String} {fuel : Nat}

def rootChildren (db : FolderDatabase) (fuel : Nat) (root_id : String) : List FolderModel :=
  ((db.folder.get? root_id).bind (fun row =>
    getChildren db.folder row.user_id fuel root_id)).getD []

def rootItems (db : FolderDatabase) (owner_cache folder_perms : Dict String String) (fuel : Nat)
    (root_id : String) : List SharedFolder :=
  (rootChildren db fuel root_id).map (sharedChild owner_cache folder_perms root_id)

theorem addRoot_some (alike : OwnedAlike db.folder) {root_id : String}
    (there : root_id ∈ db.folder.keys) {results next : List SharedFolder}
    (done : addRoot db owner_cache folder_perms fuel results root_id = some next) :
    next = (rootItems db owner_cache folder_perms fuel root_id).foldl
        (appendNew SharedFolder.id) results ∧
      ∀ found, found ∈ rootChildren db fuel root_id ↔ db.folder.get? found.1 = some found.2 ∧
        Relation.TransGen (links db.folder).Edge found.1 root_id := by
  obtain ⟨row, stored⟩ := Dict.exists_of_mem_keys there
  have owned : get_folder_by_id_and_user_id db.folder root_id row.user_id = some (root_id, row) := by
    simp [get_folder_by_id_and_user_id, get_folder_by_id, stored, Option.filter]
  rw [addRoot, get_folder_by_id, stored, Option.map_some] at done
  obtain ⟨children, answered, rfl⟩ := Option.map_eq_some_iff.mp done
  rw [get_children_folders_by_id_and_user_id, owned] at answered
  obtain ⟨folders, found, rfl⟩ := Option.map_eq_some_iff.mp answered
  have same : rootChildren db fuel root_id = folders := by
    simp [rootChildren, stored, found]
  exact ⟨by rw [rootItems, same]; rfl, by rw [same]; exact mem_getChildren_iff alike stored found⟩

theorem foldlM_addRoot (alike : OwnedAlike db.folder) {root_ids : List String}
    (there : ∀ root_id ∈ root_ids, root_id ∈ db.folder.keys) {results last : List SharedFolder}
    (done : root_ids.foldlM (addRoot db owner_cache folder_perms fuel) results = some last) :
    last = (root_ids.flatMap (rootItems db owner_cache folder_perms fuel)).foldl
        (appendNew SharedFolder.id) results ∧
      ∀ root_id ∈ root_ids, ∀ found, found ∈ rootChildren db fuel root_id ↔
        db.folder.get? found.1 = some found.2 ∧
          Relation.TransGen (links db.folder).Edge found.1 root_id := by
  induction root_ids generalizing results with
  | nil =>
    obtain rfl := Option.some.inj done
    simp
  | cons root_id rest ih =>
    rw [List.foldlM_cons] at done
    obtain ⟨next, step, later⟩ := Option.bind_eq_some_iff.mp done
    obtain ⟨rfl, children⟩ := addRoot_some alike (there root_id (by simp)) step
    obtain ⟨rfl, others⟩ := ih (fun other member => there other (by simp [member])) later
    refine ⟨by rw [List.flatMap_cons, List.foldl_append], ?_⟩
    intro other member
    rcases List.mem_cons.mp member with rfl | member
    · exact children
    · exact others other member

theorem addRoot_stops (acyclic : Acyclic db.folder) (enough : db.folder.keys.length < fuel)
    (results : List SharedFolder) (root_id : String) :
    ∃ next, addRoot db owner_cache folder_perms fuel results root_id = some next := by
  unfold addRoot
  cases get_folder_by_id db.folder root_id with
  | none => exact ⟨results, rfl⟩
  | some root_folder =>
    have stops : ∃ children, get_children_folders_by_id_and_user_id db.folder fuel root_id
        root_folder.2.user_id = some children := by
      unfold get_children_folders_by_id_and_user_id
      cases get_folder_by_id_and_user_id db.folder root_id root_folder.2.user_id with
      | none => exact ⟨none, rfl⟩
      | some found =>
        have few : (links db.folder).below found.1 ≤ db.folder.keys.length :=
          List.length_filter_le _ _
        obtain ⟨folders, done⟩ := getChildren_stops acyclic root_folder.2.user_id fuel found.1
          (by omega)
        exact ⟨some folders, congrArg (Option.map some) done⟩
    obtain ⟨children, answered⟩ := stops
    exact ⟨_, congrArg (Option.map _) answered⟩

end Children

/-- Every folder of the listing is there, and is listed with the permission of the folder that it
is listed for: itself when it is granted, else a granted one above it. -/
structure ListedFor (db : FolderDatabase) (user_id : String) (item : SharedFolder)
    (root : String) : Prop where
  stored : db.folder.get? item.id = some item.folder.2
  other : item.folder.2.user_id ≠ user_id
  path : Relation.ReflTransGen (links db.folder).Edge item.id root
  direct : Granted db user_id item.id → root = item.id
  root_stored : root ∈ db.folder.keys
  granted : Granted db user_id root
  permission : item.permission = "write" ↔ GrantedWith db user_id "write" root

section Listing

variable {db : FolderDatabase} {user_name : String → Option String} {user_id : String}
  {order : List String → List String} {fuel : Nat} {listing : List SharedFolder}

theorem get_shared_folders_eq_ok :
    get_shared_folders db order user_name fuel user_id true = .ok listing ↔
      (order ((roots db user_name user_id).1.map SharedFolder.id)).foldlM
        (addRoot db (roots db user_name user_id).2 (folderPerms db user_id) fuel)
          (roots db user_name user_id).1 = some listing := by
  rw [get_shared_folders, if_neg (by simp)]
  cases folded : (order ((roots db user_name user_id).1.map SharedFolder.id)).foldlM
      (addRoot db (roots db user_name user_id).2 (folderPerms db user_id) fuel)
        (roots db user_name user_id).1 with
  | none =>
    simp only [roots, folderPerms] at folded
    simp [folded]
  | some results =>
    simp only [roots, folderPerms] at folded
    simp [folded]

theorem mem_root_ids_iff {id : String} :
    id ∈ (roots db user_name user_id).1.map SharedFolder.id ↔
      Granted db user_id id ∧ ∃ row, db.folder.get? id = some row ∧ row.user_id ≠ user_id := by
  rw [← mem_folderPerms_iff]
  constructor
  · intro member
    obtain ⟨item, listed, rfl⟩ := List.mem_map.mp member
    obtain ⟨given, stored, other⟩ := mem_roots_iff.mp
      (⟨item, listed, rfl⟩ : ∃ one ∈ (roots db user_name user_id).1, one.shown = item.shown)
    exact ⟨Dict.mem_keys_of_get? given, item.folder.2, stored, other⟩
  · rintro ⟨named, row, stored, other⟩
    obtain ⟨permission, given⟩ := Dict.exists_of_mem_keys named
    have among : ∃ item ∈ (roots db user_name user_id).1, item.shown = ((id, row), permission) :=
      mem_roots_iff.mpr ⟨given, stored, other⟩
    obtain ⟨item, listed, shown⟩ := among
    refine List.mem_map.mpr ⟨item, listed, ?_⟩
    exact congrArg (fun shown => shown.1.1) shown

theorem listedFor_root {item : SharedFolder} (member : item ∈ (roots db user_name user_id).1) :
    ListedFor db user_id item item.id := by
  have among : ∃ one ∈ (roots db user_name user_id).1, one.shown = (item.folder, item.permission) :=
    ⟨item, member, rfl⟩
  obtain ⟨given, stored, other⟩ := mem_roots_iff.mp among
  refine ⟨stored, other, .refl, fun _ => rfl, Dict.mem_keys_of_get? stored, ?_, ?_⟩
  · exact (mem_folderPerms_iff db user_id item.id).mp (Dict.mem_keys_of_get? given)
  · have kept : (folderPerms db user_id).get? item.id = some item.permission := given
    rw [← write_folderPerms_iff, kept, Option.some.injEq]

theorem listedFor_child (alike : OwnedAlike db.folder) {owner_cache : Dict String String}
    {root : String} (rooted : root ∈ (roots db user_name user_id).1.map SharedFolder.id)
    (children : ∀ found, found ∈ rootChildren db fuel root ↔ db.folder.get? found.1 = some found.2 ∧
      Relation.TransGen (links db.folder).Edge found.1 root)
    {item : SharedFolder} (new : item.id ∉ (roots db user_name user_id).1.map SharedFolder.id)
    (member : item ∈ rootItems db owner_cache (folderPerms db user_id) fuel root) :
    ListedFor db user_id item root := by
  obtain ⟨granted, row, there, alien⟩ := mem_root_ids_iff.mp rooted
  obtain ⟨child, inside, rfl⟩ := List.mem_map.mp member
  obtain ⟨stored, path⟩ := (children child).mp inside
  have other : child.2.user_id ≠ user_id := by
    rwa [alike.above path.to_reflTransGen stored there]
  obtain ⟨permission, given⟩ := Dict.exists_of_mem_keys ((mem_folderPerms_iff db user_id root).mpr granted)
  refine ⟨stored, other, path.to_reflTransGen, ?_, Dict.mem_keys_of_get? there, granted, ?_⟩
  · intro direct
    exact absurd (mem_root_ids_iff.mpr ⟨direct, child.2, stored, other⟩) new
  · rw [← write_folderPerms_iff, given, Option.some.injEq, sharedChild, given, Option.getD_some]

theorem get_shared_folders_split (alike : OwnedAlike db.folder)
    (perm : ∀ ids, (order ids).Perm ids)
    (done : get_shared_folders db order user_name fuel user_id true = .ok listing) :
    listing = ((order ((roots db user_name user_id).1.map SharedFolder.id)).flatMap
        (rootItems db (roots db user_name user_id).2 (folderPerms db user_id) fuel)).foldl
          (appendNew SharedFolder.id) (roots db user_name user_id).1 ∧
      ∀ root ∈ (roots db user_name user_id).1.map SharedFolder.id, ∀ found,
        found ∈ rootChildren db fuel root ↔ db.folder.get? found.1 = some found.2 ∧
          Relation.TransGen (links db.folder).Edge found.1 root := by
  have there : ∀ root ∈ order ((roots db user_name user_id).1.map SharedFolder.id),
      root ∈ db.folder.keys := by
    intro root member
    obtain ⟨_, row, stored, _⟩ := mem_root_ids_iff.mp ((perm _).mem_iff.mp member)
    exact Dict.mem_keys_of_get? stored
  obtain ⟨same, children⟩ := foldlM_addRoot alike there (get_shared_folders_eq_ok.mp done)
  exact ⟨same, fun root member => children root ((perm _).mem_iff.mpr member)⟩

theorem listing_nodup (alike : OwnedAlike db.folder) (perm : ∀ ids, (order ids).Perm ids)
    (done : get_shared_folders db order user_name fuel user_id true = .ok listing) :
    (listing.map SharedFolder.id).Nodup := by
  rw [(get_shared_folders_split alike perm done).1]
  exact foldl_appendNew_nodup _ _ roots_nodup

theorem listing_listedFor (alike : OwnedAlike db.folder) (perm : ∀ ids, (order ids).Perm ids)
    (done : get_shared_folders db order user_name fuel user_id true = .ok listing)
    {item : SharedFolder} (member : item ∈ listing) :
    ∃ root, ListedFor db user_id item root := by
  have found := findKey_of_mem SharedFolder.id (listing_nodup alike perm done) member
  obtain ⟨same, children⟩ := get_shared_folders_split alike perm done
  rw [same, findKey_foldl_appendNew] at found
  rcases Option.or_eq_some_iff.mp found with direct | ⟨none, below⟩
  · exact ⟨item.id, listedFor_root (findKey_some _ direct).1⟩
  · obtain ⟨root, visited, inside⟩ := List.mem_flatMap.mp (findKey_some _ below).1
    have rooted := (perm _).mem_iff.mp visited
    exact ⟨root, listedFor_child alike rooted (children root rooted)
      ((findKey_eq_none _).mp none) inside⟩

theorem listing_complete (alike : OwnedAlike db.folder) (perm : ∀ ids, (order ids).Perm ids)
    (done : get_shared_folders db order user_name fuel user_id true = .ok listing)
    {found : FolderModel} (stored : db.folder.get? found.1 = some found.2)
    (other : found.2.user_id ≠ user_id) {root : String} (there : root ∈ db.folder.keys)
    (granted : Granted db user_id root)
    (path : Relation.ReflTransGen (links db.folder).Edge found.1 root) :
    ∃ item ∈ listing, item.folder = found := by
  obtain ⟨same, children⟩ := get_shared_folders_split alike perm done
  obtain ⟨row, above⟩ := Dict.exists_of_mem_keys there
  have rooted : root ∈ (roots db user_name user_id).1.map SharedFolder.id :=
    mem_root_ids_iff.mpr ⟨granted, row, above, by rwa [← alike.above path stored above]⟩
  have listed : found.1 ∈ listing.map SharedFolder.id := by
    rw [same, mem_keys_foldl_appendNew]
    rcases Relation.reflTransGen_iff_eq_or_transGen.mp path with rfl | below
    · exact Or.inl rooted
    · refine Or.inr (List.mem_map.mpr ⟨_, List.mem_flatMap.mpr ⟨root, (perm _).mem_iff.mpr rooted,
        List.mem_map_of_mem ((children root rooted found).mpr ⟨stored, below⟩)⟩, rfl⟩)
  obtain ⟨item, member, named⟩ := List.mem_map.mp listed
  obtain ⟨_, listedFor⟩ := listing_listedFor alike perm done member
  have kept : db.folder.get? found.1 = some item.folder.2 := named ▸ listedFor.stored
  exact ⟨item, member, Prod.ext named (Option.some.inj (kept.symm.trans stored))⟩

theorem listing_first (alike : OwnedAlike db.folder) (perm : ∀ ids, (order ids).Perm ids)
    (done : get_shared_folders db order user_name fuel user_id true = .ok listing)
    {root : String} {rest : List String}
    (first : order ((roots db user_name user_id).1.map SharedFolder.id) = root :: rest)
    {item : SharedFolder} (member : item ∈ listing) (ungranted : ¬ Granted db user_id item.id)
    (below : Relation.TransGen (links db.folder).Edge item.id root) :
    ListedFor db user_id item root := by
  have found := findKey_of_mem SharedFolder.id (listing_nodup alike perm done) member
  obtain ⟨_, listedFor⟩ := listing_listedFor alike perm done member
  obtain ⟨same, children⟩ := get_shared_folders_split alike perm done
  have rooted : root ∈ (roots db user_name user_id).1.map SharedFolder.id :=
    (perm _).mem_iff.mp (by rw [first]; exact List.mem_cons_self)
  have new : item.id ∉ (roots db user_name user_id).1.map SharedFolder.id :=
    fun old => ungranted (mem_root_ids_iff.mp old).1
  rw [same, findKey_foldl_appendNew, (findKey_eq_none _).mpr new, Option.none_or, first,
    List.flatMap_cons, findKey_append] at found
  rcases Option.or_eq_some_iff.mp found with inside | ⟨none, _⟩
  · exact listedFor_child alike rooted (children root rooted) new (findKey_some _ inside).1
  · refine absurd ?_ ((findKey_eq_none _).mp none)
    exact List.mem_map.mpr ⟨_, List.mem_map_of_mem
      ((children root rooted item.folder).mpr ⟨listedFor.stored, below⟩), rfl⟩

theorem get_shared_folders_stops (acyclic : Acyclic db.folder) (order : List String → List String)
    (user_name : String → Option String) (user_id : String) :
    ∃ fuel listing, get_shared_folders db order user_name fuel user_id true = .ok listing := by
  have each : ∀ root_id ∈ order ((roots db user_name user_id).1.map SharedFolder.id),
      ∀ results : List SharedFolder, True → ∃ next, addRoot db (roots db user_name user_id).2
        (folderPerms db user_id) (db.folder.keys.length + 1) results root_id = some next ∧ True := by
    intro root_id _ results _
    obtain ⟨next, done⟩ := addRoot_stops acyclic (Nat.lt_succ_self _) results root_id
    exact ⟨next, done, trivial⟩
  obtain ⟨listing, done, _⟩ := foldlM_some (fun _ => True) each trivial
  exact ⟨_, listing, get_shared_folders_eq_ok.mpr done⟩

end Listing

/-- The listing agrees with the checks of access: it has each folder of somebody else that the user
may read, once, and `write` for those that the user may write. -/
structure Truthful (db : FolderDatabase) (user_id : String) (listing : List SharedFolder) :
    Prop where
  once : (listing.map SharedFolder.id).Nodup
  stored : ∀ item ∈ listing, db.folder.get? item.id = some item.folder.2
  exact : ∀ found, db.folder.get? found.1 = some found.2 →
    ((∃ item ∈ listing, item.folder = found) ↔
      found.2.user_id ≠ user_id ∧ HasFolderAccess db user_id "read" found)
  permission : ∀ item ∈ listing,
    (item.permission = "write" ↔ HasFolderAccess db user_id "write" item.folder)

/-- The grants on the folders of others: a folder with a grant has one to read at it or above it; it
has one to write when a folder above it has; and where a folder without a grant is below one with a
grant to write, every granted folder above it has a grant to write. -/
structure GrantsAgree (db : FolderDatabase) (user_id : String) : Prop where
  readable : ∀ id row, db.folder.get? id = some row → row.user_id ≠ user_id →
    Granted db user_id id → Inherits db (GrantedWith db user_id "read") id
  direct : ∀ id row, db.folder.get? id = some row → row.user_id ≠ user_id →
    Granted db user_id id → Inherits db (GrantedWith db user_id "write") id →
      GrantedWith db user_id "write" id
  inherited : ∀ id row, db.folder.get? id = some row → row.user_id ≠ user_id →
    ¬ Granted db user_id id → Inherits db (GrantedWith db user_id "write") id →
      ∀ root ∈ db.folder.keys, Relation.ReflTransGen (links db.folder).Edge id root →
        Granted db user_id root → GrantedWith db user_id "write" root

section Truth

variable {db : FolderDatabase} {user_id : String}

theorem Inherits.below {holds : String → Prop} {id root : String}
    (path : Relation.ReflTransGen (links db.folder).Edge id root) (above : Inherits db holds root) :
    Inherits db holds id := by
  obtain ⟨top, there, rest, kept⟩ := above
  exact ⟨top, there, path.trans rest, kept⟩

theorem truthful_of_agree {order : List String → List String} {user_name : String → Option String}
    {fuel : Nat} {listing : List SharedFolder} (alike : OwnedAlike db.folder)
    (perm : ∀ ids, (order ids).Perm ids) (agree : GrantsAgree db user_id)
    (done : get_shared_folders db order user_name fuel user_id true = .ok listing) :
    Truthful db user_id listing := by
  refine ⟨listing_nodup alike perm done, ?_, ?_, ?_⟩
  · intro item member
    obtain ⟨_, listedFor⟩ := listing_listedFor alike perm done member
    exact listedFor.stored
  · intro found stored
    constructor
    · rintro ⟨item, member, rfl⟩
      obtain ⟨root, listedFor⟩ := listing_listedFor alike perm done member
      obtain ⟨row, above⟩ := Dict.exists_of_mem_keys listedFor.root_stored
      have alien : row.user_id ≠ user_id := by
        rw [← alike.above listedFor.path listedFor.stored above]
        exact listedFor.other
      refine ⟨listedFor.other, (hasFolderAccess_iff alike stored listedFor.other).mpr ?_⟩
      exact (agree.readable root row above alien listedFor.granted).below listedFor.path
    · rintro ⟨other, readable⟩
      obtain ⟨top, there, path, granted⟩ := (hasFolderAccess_iff alike stored other).mp readable
      exact listing_complete alike perm done stored other there ⟨"read", granted⟩ path
  · intro item member
    obtain ⟨root, listedFor⟩ := listing_listedFor alike perm done member
    rw [listedFor.permission, hasFolderAccess_iff alike listedFor.stored listedFor.other]
    constructor
    · exact fun write => ⟨root, listedFor.root_stored, listedFor.path, write⟩
    · intro writable
      by_cases granted : Granted db user_id item.id
      · rw [listedFor.direct granted]
        exact agree.direct item.id item.folder.2 listedFor.stored listedFor.other granted writable
      · exact agree.inherited item.id item.folder.2 listedFor.stored listedFor.other granted writable
          root listedFor.root_stored listedFor.path listedFor.granted

def toFront (id : String) (ids : List String) : List String :=
  if id ∈ ids then id :: ids.erase id else ids

theorem toFront_perm (id : String) (ids : List String) : (toFront id ids).Perm ids := by
  unfold toFront
  split
  · rename_i member
    exact (List.perm_cons_erase member).symm
  · exact List.Perm.refl ids

theorem found_at {id : String} {row : Folder} (stored : db.folder.get? id = some row) :
    db.folder.get? (id, row).1 = some (id, row).2 := stored

variable (db user_id)

/-- The listing of shared folders agrees with the checks of access, in whichever order it visits
the granted folders, exactly when the grants of the user agree along every chain of folders. -/
theorem get_shared_folders_truthful_iff (acyclic : Acyclic db.folder) (alike : OwnedAlike db.folder)
    (user_name : String → Option String) :
    (∀ order : List String → List String, (∀ ids, (order ids).Perm ids) →
        ∃ fuel listing, get_shared_folders db order user_name fuel user_id true = .ok listing ∧
          Truthful db user_id listing) ↔
      GrantsAgree db user_id := by
  constructor
  · intro truthful
    obtain ⟨fuel, listing, done, truth⟩ := truthful id (fun ids => List.Perm.refl ids)
    have perm : ∀ ids : List String, (id ids).Perm ids := fun ids => List.Perm.refl ids
    refine ⟨?_, ?_, ?_⟩
    · intro id row stored other granted
      have member := listing_complete alike perm done (found_at stored) other
        (Dict.mem_keys_of_get? stored) granted .refl
      obtain ⟨_, readable⟩ := (truth.exact (id, row) stored).mp member
      exact (hasFolderAccess_iff alike (found_at stored) other).mp readable
    · intro id row stored other granted writable
      obtain ⟨item, member, same⟩ := listing_complete alike perm done (found_at stored) other
        (Dict.mem_keys_of_get? stored) granted .refl
      obtain ⟨root, listedFor⟩ := listing_listedFor alike perm done member
      have named : item.id = id := congrArg Prod.fst same
      have itself : root = id := (listedFor.direct (named ▸ granted)).trans named
      rw [← itself, ← listedFor.permission, truth.permission item member, same]
      exact (hasFolderAccess_iff alike (found_at stored) other).mpr writable
    · intro id row stored other ungranted writable root there path granted
      -- the root that is asked about is visited first
      obtain ⟨fuel, listing, done, truth⟩ := truthful (toFront root) (toFront_perm root)
      obtain ⟨item, member, same⟩ := listing_complete alike (toFront_perm root) done (found_at stored)
        other there granted path
      have named : item.id = id := congrArg Prod.fst same
      have below : Relation.TransGen (links db.folder).Edge item.id root := by
        rw [named]
        rcases Relation.reflTransGen_iff_eq_or_transGen.mp path with rfl | below
        · exact absurd granted ungranted
        · exact below
      obtain ⟨above, kept⟩ := Dict.exists_of_mem_keys there
      have rooted : root ∈ (roots db user_name user_id).1.map SharedFolder.id :=
        mem_root_ids_iff.mpr ⟨granted, above, kept, by rwa [← alike.above path stored kept]⟩
      have listedFor := listing_first alike (toFront_perm root) done (if_pos rooted) member
        (named ▸ ungranted) below
      rw [← listedFor.permission, truth.permission item member, same]
      exact (hasFolderAccess_iff alike (found_at stored) other).mpr writable
  · intro agree order perm
    obtain ⟨fuel, listing, done⟩ := get_shared_folders_stops acyclic order user_name user_id
    exact ⟨fuel, listing, done, truthful_of_agree alike perm agree done⟩

end Truth

def nestedFolders : Dict String Folder where
  entries := [("A", ⟨none, "ana", "Work"⟩), ("B", ⟨some "A", "ana", "Plans"⟩)]
  unique := by decide

def nestedDatabase (access_grant : List AccessGrant) : FolderDatabase where
  access_grant := access_grant
  group := []
  group_member := []
  user := []
  folder := nestedFolders
  named := by decide

def folderGrant (id resource_id permission : String) : AccessGrant where
  id := id
  resource_type := "folder"
  resource_id := resource_id
  principal_type := "user"
  principal_id := "bob"
  permission := permission
  created_at := 0

theorem nestedFolders_edge {child parent : String} (edge : (links nestedFolders).Edge child parent) :
    child = "B" ∧ parent = "A" := by
  obtain ⟨row, found, named⟩ := edge_iff.mp edge
  have entry : (child, row) ∈ [("A", (⟨none, "ana", "Work"⟩ : Folder)),
      ("B", ⟨some "A", "ana", "Plans"⟩)] := Dict.mem_entries_iff.mpr found
  rcases List.mem_cons.mp entry with same | entry
  · obtain ⟨rfl, rfl⟩ := Prod.mk.inj same
    cases named
  · obtain ⟨rfl, rfl⟩ := Prod.mk.inj (List.mem_singleton.mp entry)
    exact ⟨rfl, (Option.some.inj named).symm⟩

theorem nestedFolders_acyclic : Acyclic nestedFolders := by
  intro id cycle
  obtain ⟨next, edge, rest⟩ := Relation.TransGen.head'_iff.mp cycle
  obtain ⟨rfl, rfl⟩ := nestedFolders_edge edge
  rcases Relation.ReflTransGen.cases_head_iff.mp rest with same | ⟨_, again, _⟩
  · exact absurd same (by decide)
  · exact absurd (nestedFolders_edge again).1 (by decide)

theorem nestedFolders_alike : OwnedAlike nestedFolders := by
  intro child row parent above stored named there
  obtain ⟨rfl, rfl⟩ := nestedFolders_edge (edge_iff.mpr ⟨row, stored, named⟩)
  obtain rfl : (⟨some "A", "ana", "Plans"⟩ : Folder) = row := Option.some.inj stored
  obtain rfl : (⟨none, "ana", "Work"⟩ : Folder) = above := Option.some.inj there
  rfl

def writtenDatabase : FolderDatabase :=
  nestedDatabase [folderGrant "1" "A" "read", folderGrant "2" "A" "write"]

theorem writtenDatabase_truthful :
    ∃ fuel listing,
      get_shared_folders writtenDatabase id (fun _ => none) fuel "bob" true = .ok listing ∧
        Truthful writtenDatabase "bob" listing := by
  refine (get_shared_folders_truthful_iff writtenDatabase "bob" nestedFolders_acyclic
    nestedFolders_alike (fun _ => none)).mpr ?_ id (fun _ => List.Perm.refl _)
  have only : ∀ id, Granted writtenDatabase "bob" id → id = "A" := by
    rintro id ⟨permission, grant, stored, ⟨_, rfl, _⟩, _⟩
    rcases List.mem_cons.mp stored with rfl | stored
    · rfl
    · obtain rfl := List.mem_singleton.mp stored
      rfl
  have admitted : ∀ id permission, (folderGrant id "A" permission).admits "bob"
      (groupIds writtenDatabase.toDatabase "bob" none) :=
    fun _ _ => Or.inl ⟨rfl, Or.inr rfl⟩
  have write : GrantedWith writtenDatabase "bob" "write" "A" :=
    ⟨folderGrant "2" "A" "write", by simp [writtenDatabase, nestedDatabase], ⟨rfl, rfl, rfl⟩,
      admitted _ _⟩
  have read : GrantedWith writtenDatabase "bob" "read" "A" :=
    ⟨folderGrant "1" "A" "read", by simp [writtenDatabase, nestedDatabase], ⟨rfl, rfl, rfl⟩,
      admitted _ _⟩
  refine ⟨?_, ?_, ?_⟩
  · intro id _ stored _ granted
    obtain rfl := only id granted
    exact ⟨"A", Dict.mem_keys_of_get? stored, .refl, read⟩
  · intro id _ _ _ granted _
    obtain rfl := only id granted
    exact write
  · intro _ _ _ _ _ _ root _ _ granted
    obtain rfl := only root granted
    exact write

def mixedDatabase : FolderDatabase :=
  nestedDatabase [folderGrant "1" "A" "write", folderGrant "2" "B" "read"]

/-- The listing has a folder that may not be read, and `read` for one that may be written. -/
theorem mixedDatabase_not_truthful :
    Acyclic mixedDatabase.folder ∧ OwnedAlike mixedDatabase.folder ∧
      get_shared_folders mixedDatabase id (fun _ => some "Ana") 3 "bob" true =
        .ok [⟨("A", ⟨none, "ana", "Work"⟩), "Ana", "write"⟩,
          ⟨("B", ⟨some "A", "ana", "Plans"⟩), "Ana", "read"⟩] ∧
      has_folder_access mixedDatabase "bob" "read" 3 ("A", ⟨none, "ana", "Work"⟩) = some false ∧
      has_folder_access mixedDatabase "bob" "write" 3 ("B", ⟨some "A", "ana", "Plans"⟩) =
        some true := by
  refine ⟨nestedFolders_acyclic, nestedFolders_alike, rfl, ?_, ?_⟩
  · decide
  · decide

end OpenWebui.Folders
