import OpenWebui.Base.Runs
import OpenWebui.Knowledge.Requests

/-! What keeps the directories of knowledge bases well formed: a new parent that is a directory of
the same knowledge base, and a database that deletes what is below a deleted directory. -/

namespace OpenWebui.Knowledge

open Relation

/-- A directory of the knowledge base. -/
def Belongs (tables : Tables) (knowledge_id directory_id : String) : Prop :=
  ∃ row, tables.knowledge_directory.get? directory_id = some row ∧ row.knowledge_id = knowledge_id

/-- The parent links are acyclic, and parents and directories of files are directories of the same
knowledge base. -/
structure WellFormed (tables : Tables) : Prop where
  acyclic : (links tables.knowledge_directory).Acyclic
  parents : ∀ id row, tables.knowledge_directory.get? id = some row → ∀ parent_id,
    row.parent_id = some parent_id → Belongs tables row.knowledge_id parent_id
  placed : ∀ knowledge_id file_id directory_id,
    tables.knowledge_file.get? (knowledge_id, file_id) = some (some directory_id) →
      Belongs tables knowledge_id directory_id

/-- A name that a path can contain. -/
def NameOk (name : String) : Prop := name ≠ "" ∧ '/' ∉ name.toList

/-- Every directory has a path of its own. -/
structure Addressed (tables : Tables) : Prop where
  generated : "" ∉ tables.knowledge_directory.keys
  names : ∀ id row, tables.knowledge_directory.get? id = some row → NameOk row.name
  distinct : ∀ id other row, tables.knowledge_directory.get? id = some row →
    tables.knowledge_directory.get? other = some row → id = other

/-- A place that a request may name: the root, a directory of the knowledge base, or one that a
foreign key refuses. -/
def Placeable (enforced : Bool) (tables : Tables) (knowledge_id : String)
    (directory_id : Option String) : Prop :=
  ∀ id, directory_id = some id → Belongs tables knowledge_id id ∨
    (enforced = true ∧ id ∉ tables.knowledge_directory.keys)

/-- No other directory at the root of the knowledge base has the name. -/
def FreeAtRoot (tables : Tables) (knowledge_id id name : String) : Prop :=
  ∀ other, tables.knowledge_directory.get? other = some ⟨knowledge_id, none, name⟩ → other = id

/-- A request that names places of its knowledge base, gives no name that a path cannot contain or
the root has, and deletes no directory whose directories would stay. -/
def Orderly (enforced : Bool) (tables : Tables) : Request → Prop
  | .create_directory id knowledge_id name parent_id =>
    Placeable enforced tables knowledge_id parent_id ∧ NameOk name ∧
      (parent_id = none → FreeAtRoot tables knowledge_id id.1 name)
  | .update_directory knowledge_id dir_id name parent_id =>
    (parent_id ≠ unset → Placeable enforced tables knowledge_id parent_id) ∧
      (∀ new_name, name = some new_name → NameOk new_name) ∧
        ∀ row, tables.knowledge_directory.get? dir_id = some row →
          (if parent_id = unset then row.parent_id else parent_id) = none →
            FreeAtRoot tables knowledge_id dir_id (name.getD row.name)
  | .delete_directory _ dir_id _ =>
    enforced = true ∨ ∀ child, ¬ (links tables.knowledge_directory).Edge child dir_id
  | .add_file knowledge_id _ directory_id => Placeable enforced tables knowledge_id directory_id
  | .move_file _ _ directory_id => enforced = true ∨ directory_id ≠ some ""

section Store

variable {tables : Tables} {id : String} {row : KnowledgeDirectory}

theorem belongs_setDirectory {knowledge_id directory_id : String}
    (kept : ∀ old, tables.knowledge_directory.get? id = some old →
      old.knowledge_id = row.knowledge_id)
    (belongs : Belongs tables knowledge_id directory_id) :
    Belongs (tables.setDirectory id row) knowledge_id directory_id := by
  obtain ⟨there, found, same⟩ := belongs
  unfold Belongs Tables.setDirectory
  rw [Dict.get?_set]
  by_cases here : id = directory_id
  · subst here
    rw [if_pos rfl]
    exact ⟨row, rfl, (kept there found).symm.trans same⟩
  · rw [if_neg here]
    exact ⟨there, found, same⟩

theorem WellFormed.setDirectory (wellFormed : WellFormed tables)
    (acyclic : (links (tables.setDirectory id row).knowledge_directory).Acyclic)
    (kept : ∀ old, tables.knowledge_directory.get? id = some old →
      old.knowledge_id = row.knowledge_id)
    (parent : ∀ parent_id, row.parent_id = some parent_id →
      Belongs tables row.knowledge_id parent_id) :
    WellFormed (tables.setDirectory id row) := by
  refine ⟨acyclic, ?_, ?_⟩
  · intro other there found parent_id named
    rw [Tables.setDirectory, Dict.get?_set] at found
    split at found
    · obtain rfl := Option.some.inj found
      exact belongs_setDirectory kept (parent parent_id named)
    · exact belongs_setDirectory kept (wellFormed.parents other there found parent_id named)
  · intro knowledge_id file_id directory_id stored
    exact belongs_setDirectory kept (wellFormed.placed knowledge_id file_id directory_id stored)

theorem clash_iff : clash tables id row = true ↔ row.parent_id.isSome = true ∧
    ∃ other, other ≠ id ∧ tables.knowledge_directory.get? other = some row := by
  rw [clash, Bool.and_eq_true, List.any_eq_true]
  refine and_congr_right (fun _ => ?_)
  constructor
  · rintro ⟨⟨other, there⟩, member, same⟩
    obtain ⟨different, rfl⟩ := of_decide_eq_true same
    exact ⟨other, different, Dict.mem_entries_iff.mp member⟩
  · rintro ⟨other, different, found⟩
    exact ⟨(other, row), Dict.mem_entries_iff.mpr found, decide_eq_true ⟨different, rfl⟩⟩

theorem clash_setDirectory (before : KnowledgeDirectory) :
    clash (tables.setDirectory id before) id row = clash tables id row := by
  rw [Bool.eq_iff_iff, clash_iff, clash_iff]
  refine and_congr_right (fun _ => exists_congr (fun other => and_congr_right (fun different => ?_)))
  rw [Tables.setDirectory, Dict.get?_set, if_neg (Ne.symm different)]

theorem setDirectory_setDirectory (before : KnowledgeDirectory) :
    (tables.setDirectory id before).setDirectory id row = tables.setDirectory id row := by
  unfold Tables.setDirectory
  congr 1
  exact Dict.eq_of_entries (Assoc.set_set ..)

theorem not_clash {parent_id : String} (free : clash tables id row = false)
    (below : row.parent_id = some parent_id) {other : String}
    (found : tables.knowledge_directory.get? other = some row) : other = id := by
  by_contra different
  have clashes := clash_iff.mpr ⟨by rw [below]; rfl, other, different, found⟩
  rw [free] at clashes
  cases clashes

theorem Addressed.setDirectory (addressed : Addressed tables) (generated : id ≠ "")
    (name : NameOk row.name) (free : clash tables id row = false)
    (root : row.parent_id = none → FreeAtRoot tables row.knowledge_id id row.name) :
    Addressed (tables.setDirectory id row) := by
  have alone : ∀ other, tables.knowledge_directory.get? other = some row → other = id := by
    intro other found
    cases below : row.parent_id with
    | some parent_id => exact not_clash free below found
    | none =>
      refine root below other ?_
      rw [found, ← below]
  refine ⟨?_, ?_, ?_⟩
  · rw [Tables.setDirectory, Dict.mem_keys_set, not_or]
    exact ⟨Ne.symm generated, addressed.generated⟩
  · intro other there found
    rw [Tables.setDirectory, Dict.get?_set] at found
    split at found
    · obtain rfl := Option.some.inj found
      exact name
    · exact addressed.names other there found
  · intro first second there one two
    rw [Tables.setDirectory, Dict.get?_set] at one two
    split at one
    · rename_i is_first
      split at two
      · rename_i is_second
        exact is_first.symm.trans is_second
      · obtain rfl := Option.some.inj one
        exact is_first.symm.trans (alone second two).symm
    · split at two
      · rename_i is_second
        obtain rfl := Option.some.inj two
        exact (alone first one).trans is_second
      · exact addressed.distinct first second there one two

end Store

theorem Belongs.mem_keys {tables : Tables} {knowledge_id directory_id : String}
    (belongs : Belongs tables knowledge_id directory_id) :
    directory_id ∈ tables.knowledge_directory.keys := by
  obtain ⟨row, found, _⟩ := belongs
  exact Dict.mem_keys_of_get? found

theorem Belongs.above {tables : Tables} {knowledge_id low high : String}
    (belongs : Belongs tables knowledge_id low) (wellFormed : WellFormed tables)
    (path : ReflTransGen (links tables.knowledge_directory).Edge low high) :
    Belongs tables knowledge_id high := by
  induction path with
  | refl => exact belongs
  | tail _ edge ih =>
    obtain ⟨row, found, named⟩ := edge_iff.mp edge
    obtain ⟨there, stored, same⟩ := ih
    obtain rfl := Option.some.inj (found.symm.trans stored)
    exact same ▸ wellFormed.parents _ row found _ named

theorem mem_keys_of_path {directories : Dict String KnowledgeDirectory} {low high : String}
    (stored : high ∈ directories.keys) (path : ReflTransGen (links directories).Edge low high) :
    low ∈ directories.keys := by
  rcases ReflTransGen.cases_head_iff.mp path with rfl | ⟨_, edge, _⟩
  · exact stored
  · exact edge.1

theorem Placeable.belongs {enforced : Bool} {tables : Tables} {knowledge_id id : String}
    {directory_id : Option String} (placeable : Placeable enforced tables knowledge_id directory_id)
    (kept : referenced enforced tables directory_id = true) (named : directory_id = some id) :
    Belongs tables knowledge_id id := by
  rcases placeable id named with belongs | ⟨is_enforced, absent⟩
  · exact belongs
  · rw [referenced, is_enforced, named] at kept
    exact absurd (by simpa using kept) absent

theorem inKnowledge_iff {tables : Tables} {knowledge_id directory_id : String} :
    inKnowledge tables knowledge_id directory_id = true ↔
      Belongs tables knowledge_id directory_id := by
  rw [inKnowledge, Option.any_eq_true]
  simp only [decide_eq_true_eq]
  rfl

section Step

variable {enforced : Bool} {tables : Tables}

theorem walkUp_of_path (acyclic : (links tables.knowledge_directory).Acyclic)
    (generated : "" ∉ tables.knowledge_directory.keys) {directory_id : String}
    (stored : directory_id ∈ tables.knowledge_directory.keys) :
    ∀ (fuel : Nat) (current : String) (seen : List String),
      (links tables.knowledge_directory).above current < fuel →
        (∀ lower ∈ seen, TransGen (links tables.knowledge_directory).Edge lower current) →
          ReflTransGen (links tables.knowledge_directory).Edge current directory_id →
            walkUp tables directory_id fuel (some current) seen = true := by
  intro fuel
  induction fuel with
  | zero =>
    intro current seen enough
    exact absurd enough (Nat.not_lt_zero _)
  | succ fuel ih =>
    intro current seen enough below path
    have fresh : ¬ (current = "" ∨ current ∈ seen) := by
      rintro (rfl | again)
      · exact generated (mem_keys_of_path stored path)
      · exact acyclic current (below current again)
    rw [walkUp, if_neg fresh]
    by_cases here : current = directory_id
    · rw [if_pos here]
    · rw [if_neg here]
      rcases ReflTransGen.cases_head_iff.mp path with same | ⟨next, edge, rest⟩
      · exact absurd same here
      · obtain ⟨row, found, named⟩ := edge_iff.mp edge
        have higher := ParentLinks.Acyclic.above_lt acyclic edge (mem_keys_of_path stored rest)
        rw [get_directory_by_id, found, Option.bind_some, named]
        refine ih next (current :: seen) (by omega) ?_ rest
        intro lower member
        rcases List.mem_cons.mp member with rfl | earlier
        · exact .single edge
        · exact (below lower earlier).tail edge

theorem above_lt_keys (current : String) :
    (links tables.knowledge_directory).above current <
      tables.knowledge_directory.keys.length + 2 := by
  have few := List.length_filter_le (fun other =>
    @decide (TransGen (links tables.knowledge_directory).Edge current other)
      (Classical.propDecidable _)) tables.knowledge_directory.keys
  unfold ParentLinks.above
  exact Nat.lt_of_le_of_lt few (by omega)

theorem create_wellFormed (wellFormed : WellFormed tables) (addressed : Addressed tables)
    {id : GeneratedId} {knowledge_id name : String} {parent_id : Option String}
    (orderly : Orderly enforced tables (.create_directory id knowledge_id name parent_id))
    {next : Tables}
    (done : create_directory enforced tables id knowledge_id name parent_id = some next) :
    WellFormed next ∧ Addressed next := by
  obtain ⟨placeable, ok, root⟩ := orderly
  simp only [create_directory] at done
  split at done
  · cases done
  rename_i accepted
  obtain rfl := Option.some.inj done
  simp only [Bool.or_eq_true, decide_eq_true_eq, Bool.not_eq_true', not_or, Bool.not_eq_false,
    Bool.not_eq_true] at accepted
  obtain ⟨⟨fresh, free⟩, kept⟩ := accepted
  have parent : ∀ parent, parent_id = some parent → Belongs tables knowledge_id parent :=
    fun parent named => placeable.belongs kept named
  refine ⟨wellFormed.setDirectory ?_ ?_ parent, addressed.setDirectory id.2 ok free root⟩
  · refine ParentLinks.Acyclic.of_new wellFormed.acyclic id.1 ?_ ?_
    · intro child above edge different
      obtain ⟨row, found, named⟩ := edge_iff.mp edge
      rw [Tables.setDirectory, Dict.get?_set, if_neg (Ne.symm different)] at found
      exact edge_iff.mpr ⟨row, found, named⟩
    · intro child edge
      obtain ⟨row, found, named⟩ := edge_iff.mp edge
      rw [Tables.setDirectory, Dict.get?_set] at found
      split at found
      · obtain rfl := Option.some.inj found
        exact fresh (parent id.1 named).mem_keys
      · exact fresh (wellFormed.parents child row found id.1 named).mem_keys
  · intro old found
    exact absurd (Dict.mem_keys_of_get? found) fresh

theorem update_cases {knowledge_id dir_id : String} {name parent_id : Option String}
    {row : KnowledgeDirectory} (found : tables.knowledge_directory.get? dir_id = some row)
    (here : row.knowledge_id = knowledge_id) :
    update_directory enforced tables dir_id name parent_id = tables ∨
      ∃ final : KnowledgeDirectory,
        update_directory enforced tables dir_id name parent_id = tables.setDirectory dir_id final ∧
          final.knowledge_id = knowledge_id ∧ clash tables dir_id final = false ∧
          (final.parent_id = if parent_id = unset then row.parent_id else parent_id) ∧
          (parent_id ≠ unset → referenced enforced tables parent_id = true ∧
            walkUp tables dir_id (tables.knowledge_directory.keys.length + 2) parent_id [] =
              false) ∧
          (final.name = row.name ∨ name = some final.name) ∧
          (final.parent_id = none → final.name = name.getD row.name) := by
  by_cases sent : parent_id = unset
  · simp only [update_directory, if_pos sent]
    cases name with
    | none => exact .inl rfl
    | some new_name =>
      simp only [rename_directory, get_directory_by_id, found, Option.bind_some]
      split
      · exact .inl rfl
      · rename_i free
        refine .inr ⟨_, rfl, here, Bool.eq_false_iff.mpr free, rfl, ?_, .inr rfl, fun _ => rfl⟩
        exact fun moved => absurd sent moved
  · simp only [update_directory, if_neg sent, move_directory, get_directory_by_id, found,
      Option.bind_some]
    split
    · rename_i refused
      exact .inl rfl
    rename_i moved accepted
    split at accepted
    · cases accepted
    rename_i apart
    split at accepted
    · cases accepted
    rename_i stored
    obtain rfl := Option.some.inj accepted
    simp only [Bool.or_eq_true, Bool.not_eq_true', not_or, Bool.not_eq_false,
      Bool.not_eq_true] at stored apart
    obtain ⟨free, kept⟩ := stored
    have checked : parent_id ≠ unset → referenced enforced tables parent_id = true ∧
        walkUp tables dir_id (tables.knowledge_directory.keys.length + 2) parent_id [] = false :=
      fun _ => ⟨kept, apart⟩
    cases name with
    | none => exact .inr ⟨_, rfl, here, free, rfl, checked, .inl rfl, fun _ => rfl⟩
    | some new_name =>
      have there : get_directory_by_id (tables.setDirectory dir_id
          { row with parent_id := parent_id }) dir_id = some { row with parent_id := parent_id } := by
        rw [get_directory_by_id, Tables.setDirectory, Dict.get?_set, if_pos rfl]
      simp only [rename_directory, there, Option.bind_some, clash_setDirectory,
        setDirectory_setDirectory]
      split
      · rename_i clashes
        refine .inr ⟨_, rfl, here, free, rfl, checked, .inl rfl, ?_⟩
        intro root
        have below := (clash_iff.mp clashes).1
        rw [root] at below
        cases below
      · rename_i renamed
        exact .inr ⟨_, rfl, here, Bool.eq_false_iff.mpr renamed, rfl, checked, .inr rfl,
          fun _ => rfl⟩

theorem setDirectory_acyclic {id : String} {row : KnowledgeDirectory}
    (acyclic : (links tables.knowledge_directory).Acyclic)
    (apart : ∀ parent, row.parent_id = some parent →
      ¬ ReflTransGen (links tables.knowledge_directory).Edge parent id) :
    (links (tables.setDirectory id row).knowledge_directory).Acyclic := by
  refine (@ParentLinks.Acyclic.reparent_iff _ _ _ id row.parent_id ?_ ?_ acyclic).mpr apart
  · intro child parent different
    rw [edge_iff, edge_iff, Tables.setDirectory, Dict.get?_set, if_neg (Ne.symm different)]
  · intro parent
    rw [edge_iff, Tables.setDirectory, Dict.get?_set, if_pos rfl]
    simp

theorem update_wellFormed (wellFormed : WellFormed tables) (addressed : Addressed tables)
    {knowledge_id dir_id : String} {name parent_id : Option String}
    (orderly : Orderly enforced tables (.update_directory knowledge_id dir_id name parent_id))
    (here : inKnowledge tables knowledge_id dir_id = true) :
    WellFormed (update_directory enforced tables dir_id name parent_id) ∧
      Addressed (update_directory enforced tables dir_id name parent_id) := by
  obtain ⟨placeable, ok, root⟩ := orderly
  obtain ⟨row, found, same⟩ := (inKnowledge_iff).mp here
  rcases @update_cases enforced tables knowledge_id dir_id name parent_id row found same with
    unchanged | ⟨final, stored, kept, free, parent, checked, named, at_root⟩
  · rw [unchanged]
    exact ⟨wellFormed, addressed⟩
  rw [stored]
  have belongs : ∀ above, final.parent_id = some above → Belongs tables knowledge_id above := by
    intro above is_above
    rw [parent] at is_above
    split at is_above
    · exact same ▸ wellFormed.parents dir_id row found above is_above
    · rename_i sent
      exact (placeable sent).belongs (checked sent).1 is_above
  have apart : ∀ above, final.parent_id = some above →
      ¬ ReflTransGen (links tables.knowledge_directory).Edge above dir_id := by
    intro above is_above path
    rw [parent] at is_above
    split at is_above
    · exact wellFormed.acyclic dir_id
        (TransGen.head' (edge_iff.mpr ⟨row, found, is_above⟩) path)
    · rename_i sent
      have finds := walkUp_of_path wellFormed.acyclic addressed.generated
        (Dict.mem_keys_of_get? found) _ above [] (above_lt_keys above) (by simp) path
      rw [← is_above, (checked sent).2] at finds
      cases finds
  refine ⟨wellFormed.setDirectory (setDirectory_acyclic wellFormed.acyclic apart) ?_ (kept ▸ belongs),
    addressed.setDirectory ?_ ?_ free ?_⟩
  · intro old there
    obtain rfl := Option.some.inj (found.symm.trans there)
    exact same.trans kept.symm
  · rintro rfl
    exact addressed.generated (Dict.mem_keys_of_get? found)
  · rcases named with old | new
    · exact old ▸ addressed.names dir_id row found
    · exact ok final.name new
  · intro at_top
    rw [at_root at_top, kept]
    exact root row found (parent ▸ at_top)

theorem collected_steps {α β : Type} {step : α → Option (List β)} {items : List α}
    {start collected : List β}
    (done : items.foldlM (fun found item => (step item).map (fun more => found ++ more)) start =
      some collected) : ∀ item ∈ items, ∃ more, step item = some more := by
  induction items generalizing start with
  | nil => simp
  | cons item rest ih =>
    rw [List.foldlM_cons, Option.bind_eq_bind, Option.bind_eq_some_iff] at done
    obtain ⟨next, first, later⟩ := done
    obtain ⟨more, found, _⟩ := Option.map_eq_some_iff.mp first
    intro other member
    rcases List.mem_cons.mp member with rfl | after
    · exact ⟨more, found⟩
    · exact ih later other after

theorem mem_collected {α β : Type} {step : α → Option (List β)} {items : List α}
    {start collected : List β}
    (done : items.foldlM (fun found item => (step item).map (fun more => found ++ more)) start =
      some collected) (value : β) :
    value ∈ collected ↔ value ∈ start ∨ ∃ item ∈ items, ∃ more, step item = some more ∧
      value ∈ more := by
  induction items generalizing start with
  | nil =>
    obtain rfl := Option.some.inj done
    simp
  | cons item rest ih =>
    rw [List.foldlM_cons, Option.bind_eq_bind, Option.bind_eq_some_iff] at done
    obtain ⟨next, first, later⟩ := done
    obtain ⟨more, found, rfl⟩ := Option.map_eq_some_iff.mp first
    rw [ih later, List.mem_append, or_assoc]
    simp [found]

theorem mem_subtree {directories : Dict String KnowledgeDirectory} : ∀ {fuel : Nat} {id : String}
    {ids : List String}, subtree directories fuel id = some ids → ∀ other,
      other ∈ ids ↔ ReflTransGen (links directories).Edge other id := by
  intro fuel
  induction fuel with
  | zero =>
    intro id ids done
    cases done
  | succ fuel ih =>
    intro id ids done other
    rw [subtree] at done
    have through := collected_steps done
    rw [mem_collected done, List.mem_singleton]
    constructor
    · rintro (rfl | ⟨child, member, deeper, found, under⟩)
      · exact .refl
      · exact ((ih found other).mp under).tail (mem_children.mp member)
    · intro path
      rcases ReflTransGen.cases_tail path with same | ⟨child, under, edge⟩
      · exact .inl same.symm
      · obtain ⟨deeper, found⟩ := through child (mem_children.mpr edge)
        exact .inr ⟨child, mem_children.mpr edge, deeper, found, (ih found other).mpr under⟩

theorem delete_wellFormed (wellFormed : WellFormed tables) (addressed : Addressed tables)
    {knowledge_id dir_id : String} {move_files : Bool}
    (orderly : Orderly enforced tables (.delete_directory knowledge_id dir_id move_files))
    {next : Tables} (done : delete_directory enforced tables dir_id move_files = some next) :
    WellFormed next ∧ Addressed next := by
  obtain ⟨directory, found, done⟩ := Option.bind_eq_some_iff.mp done
  obtain ⟨ids, collected, rfl⟩ := Option.map_eq_some_iff.mp done
  have below := mem_subtree collected
  have gone : ∀ id, id ∈ (if enforced then ids else [dir_id]) ↔
      ReflTransGen (links tables.knowledge_directory).Edge id dir_id := by
    intro id
    rcases orderly with rfl | leaf
    · exact below id
    · split
      · exact below id
      · rw [List.mem_singleton]
        constructor
        · rintro rfl
          exact .refl
        · intro path
          rcases ReflTransGen.cases_tail path with same | ⟨child, _, edge⟩
          · exact same.symm
          · exact absurd edge (leaf child)
  generalize (if enforced then ids else [dir_id]) = removed at gone
  have left : ∀ id row, (removed.foldl Dict.erase tables.knowledge_directory).get? id = some row ↔
      tables.knowledge_directory.get? id = some row ∧ id ∉ removed := by
    intro id row
    rw [Dict.get?_foldl_erase]
    split
    · rename_i member
      exact iff_of_false (by simp) (fun both => both.2 member)
    · rename_i kept
      exact (and_iff_left kept).symm
  -- a parent of a directory that stays, stays
  have stays : ∀ id parent, (links tables.knowledge_directory).Edge id parent → id ∉ removed →
      parent ∉ removed := by
    intro id parent edge kept member
    exact kept ((gone id).mpr (.head edge ((gone parent).mp member)))
  have survives : ∀ knowledge_id id, Belongs tables knowledge_id id → id ∉ removed →
      ∃ row, (removed.foldl Dict.erase tables.knowledge_directory).get? id = some row ∧
        row.knowledge_id = knowledge_id := by
    rintro knowledge_id id ⟨row, there, same⟩ kept
    exact ⟨row, (left id row).mpr ⟨there, kept⟩, same⟩
  refine ⟨⟨?_, ?_, ?_⟩, ?_, ?_, ?_⟩
  · refine wellFormed.acyclic.of_paths ?_
    intro child parent edge
    obtain ⟨row, there, named⟩ := edge_iff.mp edge
    exact .single (edge_iff.mpr ⟨row, ((left child row).mp there).1, named⟩)
  · intro id row there parent_id named
    obtain ⟨was, kept⟩ := (left id row).mp there
    exact survives _ _ (wellFormed.parents id row was parent_id named)
      (stays id parent_id (edge_iff.mpr ⟨row, was, named⟩) kept)
  · intro knowledge_id file_id directory_id stored
    have outside : ∀ id, id ∉ ids → id ∉ removed := fun id apart member =>
      apart ((below id).mpr ((gone id).mp member))
    by_cases moves : move_files = true
    · simp only [if_pos moves, Dict.get?_mapValue] at stored
      obtain ⟨was, in_table, placed⟩ := Option.map_eq_some_iff.mp stored
      split at placed
      · rename_i inside
        obtain ⟨from_id, rfl, member⟩ := (Option.any_eq_true _ _).mp inside
        obtain ⟨row, there, same⟩ := (wellFormed.placed _ _ _ in_table).above wellFormed
          ((below from_id).mp (of_decide_eq_true member))
        obtain rfl := Option.some.inj (there.symm.trans found)
        refine survives _ _ (same ▸ wellFormed.parents dir_id row there directory_id placed) ?_
        intro under
        exact wellFormed.acyclic dir_id (TransGen.head' (edge_iff.mpr ⟨row, there, placed⟩)
          ((gone directory_id).mp under))
      · rename_i apart
        subst placed
        refine survives _ _ (wellFormed.placed _ _ _ in_table) (outside directory_id ?_)
        simpa using apart
    · simp only [if_neg moves, Dict.get?_foldl_erase] at stored
      split at stored
      · cases stored
      · rename_i kept
        refine survives _ _ (wellFormed.placed _ _ _ stored) (outside directory_id ?_)
        intro member
        refine kept (List.mem_map.mpr ⟨((knowledge_id, file_id), some directory_id), ?_, rfl⟩)
        exact List.mem_filter.mpr ⟨Dict.mem_entries_iff.mpr stored, by simpa using member⟩
  · intro stored
    exact addressed.generated ((Dict.mem_keys_foldl_erase).mp stored).2
  · intro id row there
    exact addressed.names id row ((left id row).mp there).1
  · intro id other row one two
    exact addressed.distinct id other row ((left id row).mp one).1 ((left other row).mp two).1

theorem place_wellFormed (wellFormed : WellFormed tables)
    {knowledge_file : Dict (String × String) (Option String)} {knowledge_id : String}
    {directory_id : Option String}
    (belongs : ∀ id, directory_id = some id → Belongs tables knowledge_id id)
    (others : ∀ key value, knowledge_file.get? key = some value →
      tables.knowledge_file.get? key = some value ∨ (key.1 = knowledge_id ∧ value = directory_id)) :
    WellFormed { tables with knowledge_file := knowledge_file } := by
  refine ⟨wellFormed.acyclic, wellFormed.parents, ?_⟩
  intro knowledge_id' file_id id stored
  rcases others _ _ stored with before | ⟨rfl, placed⟩
  · exact wellFormed.placed knowledge_id' file_id id before
  · exact belongs id placed.symm

theorem handle_wellFormed (wellFormed : WellFormed tables) (addressed : Addressed tables)
    {request : Request} (orderly : Orderly enforced tables request) :
    WellFormed (handle enforced tables request) ∧ Addressed (handle enforced tables request) := by
  have same := And.intro wellFormed addressed
  cases request with
  | create_directory id knowledge_id name parent_id =>
    rw [handle]
    cases done : create_directory enforced tables id knowledge_id name parent_id with
    | none => exact same
    | some next => exact create_wellFormed wellFormed addressed orderly done
  | update_directory knowledge_id dir_id name parent_id =>
    rw [handle]
    split
    · rename_i here
      exact update_wellFormed wellFormed addressed orderly here
    · exact same
  | delete_directory knowledge_id dir_id move_files =>
    rw [handle]
    split
    · cases done : delete_directory enforced tables dir_id move_files with
      | none => exact same
      | some next => exact delete_wellFormed wellFormed addressed orderly done
    · exact same
  | add_file knowledge_id file_id directory_id =>
    rw [handle, add_file_to_knowledge_by_id]
    split
    · split
      · exact same
      · rename_i accepted
        simp only [Bool.or_eq_true, Bool.not_eq_true', not_or, Bool.not_eq_false] at accepted
        refine ⟨place_wellFormed wellFormed (fun id named => orderly.belongs accepted.2 named) ?_,
          ⟨addressed.generated, addressed.names, addressed.distinct⟩⟩
        intro key value stored
        rw [Dict.get?_set] at stored
        split at stored
        · rename_i here
          exact .inr ⟨here ▸ rfl, (Option.some.inj stored).symm⟩
        · exact .inl stored
    · exact same
  | move_file knowledge_id file_id directory_id =>
    rw [handle, move_file_to_directory]
    split
    · rename_i checked
      split
      · rename_i kept
        rw [Bool.and_eq_true] at checked
        have belongs : ∀ id, directory_id = some id → Belongs tables knowledge_id id := by
          rintro id rfl
          by_cases named : id = ""
          · subst named
            rcases orderly with rfl | other
            · exact absurd (by simpa [referenced] using kept) addressed.generated
            · exact absurd rfl other
          · refine inKnowledge_iff.mp ?_
            simpa [named] using checked.2
        refine ⟨place_wellFormed wellFormed belongs ?_,
          ⟨addressed.generated, addressed.names, addressed.distinct⟩⟩
        intro key value stored
        rcases Dict.get?_modify_cases stored with ⟨rfl, _, _, placed⟩ | ⟨_, kept⟩
        · exact .inr ⟨rfl, placed⟩
        · exact .inl kept
      · exact same
    · exact same

end Step

end OpenWebui.Knowledge
