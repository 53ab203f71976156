import OpenWebui.Knowledge.Listing

/-! The deletion of a directory statement by statement, on a database that enforces its foreign keys
or does not, in the session of the caller or in one of its own, with an operation that may fail. -/

namespace OpenWebui.Knowledge

open Relation

section Subtree

variable {directories : Dict String KnowledgeDirectory}

theorem collected_of_steps {α β : Type} {step : α → Option (List β)} {items : List α}
    (steps : ∀ item ∈ items, ∃ more, step item = some more) (start : List β) :
    ∃ collected, items.foldlM (fun found item => (step item).map (fun more => found ++ more))
      start = some collected := by
  induction items generalizing start with
  | nil => exact ⟨start, rfl⟩
  | cons item rest ih =>
    obtain ⟨more, first⟩ := steps item (by simp)
    obtain ⟨collected, later⟩ := ih (fun other member => steps other (by simp [member]))
      (start ++ more)
    exact ⟨collected, by simp [List.foldlM_cons, first, later]⟩

theorem not_cycle_below {low high : String} (apart : ¬ TransGen (links directories).Edge high high)
    (path : ReflTransGen (links directories).Edge low high) :
    ¬ TransGen (links directories).Edge low low := by
  intro cycle
  apply apart
  induction path with
  | refl => exact cycle
  | @tail middle high _ edge ih =>
    by_cases around : TransGen (links directories).Edge middle middle
    · obtain ⟨next, first, back⟩ := TransGen.head'_iff.mp around
      obtain rfl := parent_unique edge first
      exact TransGen.tail' back edge
    · exact absurd (ih around) around

theorem exists_subtree {id : String} (apart : ¬ TransGen (links directories).Edge id id) :
    ∃ ids, subtree directories (directories.keys.length + 1) id = some ids := by
  have general : ∀ (fuel : Nat) (id : String), (links directories).below id < fuel →
      ¬ TransGen (links directories).Edge id id → ∃ ids, subtree directories fuel id = some ids := by
    intro fuel
    induction fuel with
    | zero =>
      intro id enough
      exact absurd enough (Nat.not_lt_zero _)
    | succ fuel ih =>
      intro id enough apart
      rw [subtree]
      refine collected_of_steps ?_ [id]
      intro child member
      have edge := mem_children.mp member
      have apart_child := not_cycle_below apart (.single edge)
      have lower := ParentLinks.below_lt edge apart_child
      exact ih child (by omega) apart_child
  exact general _ id (Nat.lt_succ_of_le (List.length_filter_le _ _)) apart

end Subtree

inductive Statement where
  | select_children (parent_id : String)
  | update_files (directory_id : String) (target : Option String)
  | delete_files (directory_id : String)
  | delete_row (directory_id : String)

def cascade (directories : Dict String KnowledgeDirectory) (directory_id : String) : List String :=
  (subtree directories (directories.keys.length + 1) directory_id).getD [directory_id]

/-- The tables after a statement. With foreign keys the row of a directory takes the rows below it
along and leaves their files at the root. A file never moves to a directory that a foreign key would
refuse: it moves to the parent of a stored one. -/
def Statement.execute (enforced : Bool) (tables : Tables) : Statement → Tables
  | .select_children _ => tables
  | .update_files directory_id target =>
    { tables with
      knowledge_file := tables.knowledge_file.mapValue (fun _ place =>
        if place = some directory_id then target else place) }
  | .delete_files directory_id =>
    { tables with
      knowledge_file := ((tables.knowledge_file.entries.filter (fun row =>
        decide (row.2 = some directory_id))).map Prod.fst).foldl Dict.erase tables.knowledge_file }
  | .delete_row directory_id =>
    if enforced then
      let ids := cascade tables.knowledge_directory directory_id
      { tables with
        knowledge_directory := ids.foldl Dict.erase tables.knowledge_directory
        knowledge_file := tables.knowledge_file.mapValue (fun _ place =>
          if place.any (fun id => decide (id ∈ ids)) then none else place) }
    else
      { tables with knowledge_directory := tables.knowledge_directory.erase directory_id }

section Recursion

variable (directories : Dict String KnowledgeDirectory)

def move_files_from_subtree (target_directory_id : Option String) :
    Nat → String → Option (List Statement)
  | 0, _ => none
  | fuel + 1, directory_id =>
    ((links directories).children directory_id).foldlM (fun statements child_id =>
      ((move_files_from_subtree target_directory_id fuel child_id).map (fun deeper =>
        .update_files child_id target_directory_id :: deeper)).map (fun more =>
          statements ++ more)) [.select_children directory_id]

def delete_files_in_subtree : Nat → String → Option (List Statement)
  | 0, _ => none
  | fuel + 1, directory_id =>
    ((links directories).children directory_id).foldlM (fun statements child_id =>
      (delete_files_in_subtree fuel child_id).map (fun deeper => statements ++ deeper))
      [.delete_files directory_id, .select_children directory_id]

def deletion (directory_id : String) (directory : KnowledgeDirectory) (move_files_to_parent : Bool) :
    Option (List Statement) :=
  let fuel := directories.keys.length + 1
  (if move_files_to_parent then
    (move_files_from_subtree directories directory.parent_id fuel directory_id).map (fun deeper =>
      .update_files directory_id directory.parent_id :: deeper)
  else delete_files_in_subtree directories fuel directory_id).map (fun statements =>
    statements ++ [.delete_row directory_id])

end Recursion

/-- An exception after some of the statements, the commit being the operation after the last; the
database may have given the transaction up. -/
structure Fault where
  after : Nat
  aborted : Bool

/-- What a call leaves: the stored tables, those that the session of the caller sees and that its
next commit stores, and what it returns. -/
structure Deletion where
  committed : Tables
  pending : Tables
  success : Bool

def failed (shared enforced : Bool) (tables : Tables) (executed : List Statement) (aborted : Bool) :
    Deletion where
  committed := tables
  pending :=
    if shared && !aborted then executed.foldl (Statement.execute enforced) tables else tables
  success := false

/-- `delete_directory` in a session; none when the recursion does not stop. -/
def delete_directory_session (shared enforced : Bool) (fault : Option Fault) (tables : Tables)
    (directory_id : String) (move_files_to_parent : Bool) : Option Deletion :=
  match get_directory_by_id tables directory_id with
  | none => some (failed shared enforced tables [] false)
  | some directory =>
    (deletion tables.knowledge_directory directory_id directory move_files_to_parent).map
      (fun statements =>
        match fault.filter (fun fault => decide (fault.after ≤ statements.length)) with
        | some fault => failed shared enforced tables (statements.take fault.after) fault.aborted
        | none =>
          let after := statements.foldl (Statement.execute enforced) tables
          ⟨after, after, true⟩)

/-- Exactly a directory and those below it are removed, and the links of the files in them are
changed to another or removed. -/
structure SubtreeRemoved (before after : Tables) (directory_id : String)
    (link : Option (Option String)) : Prop where
  file : after.file = before.file
  gone : ∀ id, ReflTransGen (links before.knowledge_directory).Edge id directory_id →
    after.knowledge_directory.get? id = none
  others : ∀ id, ¬ ReflTransGen (links before.knowledge_directory).Edge id directory_id →
    after.knowledge_directory.get? id = before.knowledge_directory.get? id
  inside : ∀ key id, before.knowledge_file.get? key = some (some id) →
    ReflTransGen (links before.knowledge_directory).Edge id directory_id →
      after.knowledge_file.get? key = link
  outside : ∀ key, (∀ id, before.knowledge_file.get? key = some (some id) →
    ¬ ReflTransGen (links before.knowledge_directory).Edge id directory_id) →
      after.knowledge_file.get? key = before.knowledge_file.get? key

def changedLink (directory : KnowledgeDirectory) (move_files_to_parent : Bool) :
    Option (Option String) :=
  if move_files_to_parent then some directory.parent_id else none

/-- What a call is to leave: a success has removed the subtree, a failure nothing. -/
def DeletesExactly (before : Tables) (directory_id : String) (move_files_to_parent : Bool)
    (outcome : Deletion) : Prop :=
  if outcome.success then
    ∃ directory, before.knowledge_directory.get? directory_id = some directory ∧
      SubtreeRemoved before outcome.committed directory_id
        (changedLink directory move_files_to_parent) ∧ outcome.pending = outcome.committed
  else outcome.committed = before ∧ outcome.pending = before

section Statements

variable {directories : Dict String KnowledgeDirectory}

theorem foldlM_visit {α β γ : Type} {step : α → Option (List β)} {step' : α → Option (List γ)}
    {visit : β → List γ} {items : List α}
    (same : ∀ item ∈ items, step' item = (step item).map (List.flatMap visit)) (start : List β) :
    items.foldlM (fun found item => (step' item).map (fun more => found ++ more))
        (start.flatMap visit) =
      (items.foldlM (fun found item => (step item).map (fun more => found ++ more)) start).map
        (List.flatMap visit) := by
  induction items generalizing start with
  | nil => rfl
  | cons item rest ih =>
    have first := same item (by simp)
    cases found : step item with
    | none => simp [List.foldlM_cons, first, found]
    | some more =>
      have later := ih (fun other member => same other (by simp [member])) (start ++ more)
      simp only [List.flatMap_append] at later
      simp [List.foldlM_cons, first, found, later]

theorem foldlM_begins {α β : Type} {step : α → Option (List β)} (items : List α)
    (before start : List β) :
    items.foldlM (fun found item => (step item).map (fun more => found ++ more)) (before ++ start) =
      (items.foldlM (fun found item => (step item).map (fun more => found ++ more)) start).map
        (fun found => before ++ found) := by
  induction items generalizing start with
  | nil => rfl
  | cons item rest ih =>
    cases found : step item with
    | none => simp [List.foldlM_cons, found]
    | some more => simp [List.foldlM_cons, found, ← ih]

def visits (statement : String → Statement) (id : String) : List Statement :=
  [statement id, .select_children id]

theorem delete_files_eq (fuel : Nat) (directory_id : String) :
    delete_files_in_subtree directories fuel directory_id =
      (subtree directories fuel directory_id).map (List.flatMap (visits .delete_files)) := by
  induction fuel generalizing directory_id with
  | zero => rfl
  | succ fuel ih =>
    rw [delete_files_in_subtree, subtree]
    exact foldlM_visit (fun child _ => ih child) [directory_id]

theorem move_files_eq (target : Option String) (fuel : Nat) (directory_id : String) :
    (move_files_from_subtree directories target fuel directory_id).map (fun deeper =>
        .update_files directory_id target :: deeper) =
      (subtree directories fuel directory_id).map
        (List.flatMap (visits (fun id => Statement.update_files id target))) := by
  induction fuel generalizing directory_id with
  | zero => rfl
  | succ fuel ih =>
    rw [move_files_from_subtree, subtree, ← foldlM_visit (fun child _ => ih child) [directory_id]]
    exact (foldlM_begins _ [Statement.update_files directory_id target]
      [Statement.select_children directory_id]).symm

end Statements

section Files

variable {enforced : Bool}

/-- A statement that changes the links of the files in one directory. -/
structure FileStep (enforced : Bool) (statement : String → Statement)
    (link : Option (Option String)) : Prop where
  file : ∀ tables id, ((statement id).execute enforced tables).file = tables.file
  directories : ∀ tables id,
    ((statement id).execute enforced tables).knowledge_directory = tables.knowledge_directory
  links : ∀ tables id key, ((statement id).execute enforced tables).knowledge_file.get? key =
    (tables.knowledge_file.get? key).bind (fun place => if place = some id then link else some place)

theorem update_files_step (target : Option String) :
    FileStep enforced (fun id => .update_files id target) (some target) := by
  refine ⟨fun _ _ => rfl, fun _ _ => rfl, ?_⟩
  intro tables id key
  rw [Statement.execute, Dict.get?_mapValue, Option.map_eq_bind]
  congr 1
  funext place
  simp only [Function.comp_def]
  split <;> rfl

theorem delete_files_step : FileStep enforced .delete_files none := by
  refine ⟨fun _ _ => rfl, fun _ _ => rfl, ?_⟩
  intro tables id key
  rw [Statement.execute, Dict.get?_foldl_erase]
  cases linked : tables.knowledge_file.get? key with
  | none => simp
  | some place =>
    have removed : key ∈ (tables.knowledge_file.entries.filter (fun row =>
        decide (row.2 = some id))).map Prod.fst ↔ place = some id := by
      rw [Dict.mem_keys_filter, linked]
      simp
    simp only [removed, Option.bind_some]

theorem visited {statement : String → Statement} {link : Option (Option String)}
    (step : FileStep enforced statement link) {ids : List String}
    (apart : ∀ id ∈ ids, link ≠ some (some id)) (tables : Tables) :
    let after := (ids.flatMap (visits statement)).foldl (Statement.execute enforced) tables
    after.file = tables.file ∧ after.knowledge_directory = tables.knowledge_directory ∧
      ∀ key, after.knowledge_file.get? key = (tables.knowledge_file.get? key).bind (fun place =>
        if place.any (fun id => decide (id ∈ ids)) then link else some place) := by
  induction ids generalizing tables with
  | nil =>
    refine ⟨rfl, rfl, fun key => ?_⟩
    simp
  | cons id rest ih =>
    obtain ⟨file, directories, links⟩ :=
      ih (fun other member => apart other (by simp [member])) ((statement id).execute enforced tables)
    rw [List.flatMap_cons, List.foldl_append]
    refine ⟨file.trans (step.file tables id), directories.trans (step.directories tables id), ?_⟩
    intro key
    refine (links key).trans ?_
    rw [step.links]
    cases tables.knowledge_file.get? key with
    | none => rfl
    | some place =>
      by_cases here : place = some id
      · -- the changed link is in none of the directories that are left
        cases link with
        | none => simp [here]
        | some target =>
          have outside : target.any (fun id => decide (id ∈ rest)) = false := by
            cases target with
            | none => rfl
            | some other =>
              have := apart other
              simp_all
          simp [here, outside]
      · cases place with
        | none => simp
        | some other =>
          have differ : other ≠ id := fun same => here (congrArg some same)
          simp [differ]

theorem delete_row_gone {tables : Tables} {directory_id : String} {ids : List String}
    (collected : subtree tables.knowledge_directory (tables.knowledge_directory.keys.length + 1)
      directory_id = some ids)
    (empty : ∀ key id, tables.knowledge_file.get? key = some (some id) → id ∉ ids) :
    let after := (Statement.delete_row directory_id).execute enforced tables
    after.file = tables.file ∧
      (∀ id, after.knowledge_directory.get? id =
        if id ∈ (if enforced then ids else [directory_id]) then none
        else tables.knowledge_directory.get? id) ∧
      ∀ key, after.knowledge_file.get? key = tables.knowledge_file.get? key := by
  cases enforced with
  | false =>
    refine ⟨rfl, ?_, fun _ => rfl⟩
    intro id
    simp [Statement.execute, Dict.get?_erase, eq_comm]
  | true =>
    have goes : cascade tables.knowledge_directory directory_id = ids := by
      rw [cascade, collected, Option.getD_some]
    refine ⟨rfl, ?_, ?_⟩
    · intro id
      simp [Statement.execute, goes]
    · intro key
      simp only [Statement.execute, if_true, goes, Dict.get?_mapValue]
      cases linked : tables.knowledge_file.get? key with
      | none => rfl
      | some place =>
        have outside : place.any (fun id => decide (id ∈ ids)) = false := by
          cases place with
          | none => rfl
          | some id => simpa using empty key id linked
        simp [outside]

end Files

section Removal

variable {enforced : Bool} {tables : Tables} {directory_id : String}
  {directory : KnowledgeDirectory} {move_files_to_parent : Bool}

def fileStatement (directory : KnowledgeDirectory) (move_files_to_parent : Bool) (id : String) :
    Statement :=
  if move_files_to_parent then .update_files id directory.parent_id else .delete_files id

theorem fileStatement_step (directory : KnowledgeDirectory) (move_files_to_parent : Bool) :
    FileStep enforced (fileStatement directory move_files_to_parent)
      (changedLink directory move_files_to_parent) := by
  cases move_files_to_parent with
  | false => exact delete_files_step
  | true => exact update_files_step directory.parent_id

theorem deletion_eq {directories : Dict String KnowledgeDirectory} {ids : List String}
    (collected : subtree directories (directories.keys.length + 1) directory_id = some ids) :
    deletion directories directory_id directory move_files_to_parent =
      some (ids.flatMap (visits (fileStatement directory move_files_to_parent)) ++
        [.delete_row directory_id]) := by
  cases move_files_to_parent with
  | false =>
    simp only [deletion, Bool.false_eq_true, if_false, delete_files_eq, collected, Option.map_some]
    rfl
  | true =>
    simp only [deletion, if_true, move_files_eq, collected, Option.map_some]
    rfl

/-- The tables after all statements: the row of the directory is gone, with foreign keys the rows
below it too, and the links of the files in the subtree are changed. -/
structure Executed (enforced : Bool) (before after : Tables) (directory_id : String)
    (ids : List String) (link : Option (Option String)) : Prop where
  file : after.file = before.file
  directories : ∀ id, after.knowledge_directory.get? id =
    if id ∈ (if enforced then ids else [directory_id]) then none
    else before.knowledge_directory.get? id
  links : ∀ key, after.knowledge_file.get? key = (before.knowledge_file.get? key).bind (fun place =>
    if place.any (fun id => decide (id ∈ ids)) then link else some place)

theorem deletion_executed
    (apart : ¬ TransGen (links tables.knowledge_directory).Edge directory_id directory_id)
    (found : tables.knowledge_directory.get? directory_id = some directory) :
    ∃ ids statements,
      subtree tables.knowledge_directory (tables.knowledge_directory.keys.length + 1) directory_id =
        some ids ∧
      deletion tables.knowledge_directory directory_id directory move_files_to_parent =
        some statements ∧
      Executed enforced tables (statements.foldl (Statement.execute enforced) tables) directory_id ids
        (changedLink directory move_files_to_parent) := by
  obtain ⟨ids, collected⟩ := exists_subtree apart
  -- the parent is not below the directory, so no file is moved twice
  have above : ∀ id ∈ ids, changedLink directory move_files_to_parent ≠ some (some id) := by
    intro id member same
    rw [changedLink] at same
    split at same
    · exact apart (TransGen.head' (edge_iff.mpr ⟨directory, found, Option.some.inj same⟩)
        ((mem_subtree collected id).mp member))
    · cases same
  obtain ⟨file, directories, linked⟩ := visited
    (@fileStatement_step enforced directory move_files_to_parent) above tables
  generalize visits_eq : (ids.flatMap (visits (fileStatement directory
    move_files_to_parent))).foldl (Statement.execute enforced) tables = moved at file directories linked
  have empty : ∀ key id, moved.knowledge_file.get? key = some (some id) → id ∉ ids := by
    intro key id there member
    rw [linked, Option.bind_eq_some_iff] at there
    obtain ⟨place, _, changed⟩ := there
    split at changed
    · exact above id member changed
    · rename_i outside
      obtain rfl := Option.some.inj changed
      exact outside (by simpa using member)
  obtain ⟨file_after, gone, kept⟩ := @delete_row_gone enforced moved directory_id ids
    (by rw [directories]; exact collected) empty
  refine ⟨ids, _, collected, deletion_eq collected, ?_⟩
  rw [List.foldl_append, List.foldl_cons, List.foldl_nil, visits_eq]
  exact ⟨file_after.trans file, fun id => (gone id).trans (by rw [directories]),
    fun key => (kept key).trans (linked key)⟩

theorem delete_directory_executed {ids : List String}
    (found : tables.knowledge_directory.get? directory_id = some directory)
    (collected : subtree tables.knowledge_directory (tables.knowledge_directory.keys.length + 1)
      directory_id = some ids) :
    ∃ after, delete_directory enforced tables directory_id move_files_to_parent = some after ∧
      Executed enforced tables after directory_id ids
        (changedLink directory move_files_to_parent) := by
  simp only [delete_directory, get_directory_by_id, found, Option.bind_some, collected,
    Option.map_some]
  refine ⟨_, rfl, rfl, fun id => Dict.get?_foldl_erase .., ?_⟩
  intro key
  cases move_files_to_parent with
  | true =>
    simp only [if_true, changedLink, Dict.get?_mapValue, Option.map_eq_bind]
    congr 1
    funext place
    simp only [Function.comp_def]
    split <;> rfl
  | false =>
    simp only [Bool.false_eq_true, if_false, changedLink, Dict.get?_foldl_erase]
    cases linked : tables.knowledge_file.get? key with
    | none => simp
    | some place =>
      have removed : key ∈ (tables.knowledge_file.entries.filter (fun row =>
          row.2.any (fun id => decide (id ∈ ids)))).map Prod.fst ↔
            place.any (fun id => decide (id ∈ ids)) = true := by
        rw [Dict.mem_keys_filter, linked]
        simp
      simp only [removed, Option.bind_some]

theorem delete_directory_session_agrees {shared : Bool}
    (apart : ¬ TransGen (links tables.knowledge_directory).Edge directory_id directory_id)
    (stored : directory_id ∈ tables.knowledge_directory.keys) :
    ∃ outcome after, delete_directory_session shared enforced none tables directory_id
        move_files_to_parent = some outcome ∧
      delete_directory enforced tables directory_id move_files_to_parent = some after ∧
      outcome.committed.file = after.file ∧
      (∀ id, outcome.committed.knowledge_directory.get? id = after.knowledge_directory.get? id) ∧
      ∀ key, outcome.committed.knowledge_file.get? key = after.knowledge_file.get? key := by
  obtain ⟨directory, found⟩ := Dict.exists_of_mem_keys stored
  have there : get_directory_by_id tables directory_id = some directory := found
  obtain ⟨ids, statements, collected, listed, executed⟩ := @deletion_executed enforced tables
    directory_id directory move_files_to_parent apart found
  obtain ⟨after, done, same⟩ := @delete_directory_executed enforced tables directory_id directory
    move_files_to_parent ids found collected
  simp only [delete_directory_session, there, listed, Option.map_some, Option.filter_none]
  refine ⟨_, after, rfl, done, executed.file.trans same.file.symm, ?_, ?_⟩
  · exact fun id => (executed.directories id).trans (same.directories id).symm
  · exact fun key => (executed.links key).trans (same.links key).symm

theorem deletion_removes_iff
    (apart : ¬ TransGen (links tables.knowledge_directory).Edge directory_id directory_id)
    (found : tables.knowledge_directory.get? directory_id = some directory) :
    ∃ statements, deletion tables.knowledge_directory directory_id directory
        move_files_to_parent = some statements ∧
      (statements.foldl (Statement.execute enforced) tables).knowledge_directory.get? directory_id =
        none ∧
      (SubtreeRemoved tables (statements.foldl (Statement.execute enforced) tables) directory_id
          (changedLink directory move_files_to_parent) ↔
        enforced = true ∨ ∀ child, ¬ (links tables.knowledge_directory).Edge child directory_id) := by
  obtain ⟨ids, statements, collected, listed, executed⟩ := @deletion_executed enforced tables
    directory_id directory move_files_to_parent apart found
  have inside := mem_subtree collected
  have itself : directory_id ∈ (if enforced then ids else [directory_id]) := by
    split
    · exact (inside directory_id).mpr .refl
    · exact List.mem_singleton_self directory_id
  refine ⟨statements, listed, by rw [executed.directories, if_pos itself], ?_⟩
  constructor
  · intro removed
    refine or_iff_not_imp_left.mpr (fun unenforced child edge => ?_)
    have missing := removed.gone child (.single edge)
    have differs : child ≠ directory_id := by
      rintro rfl
      exact apart (.single edge)
    rw [executed.directories, if_neg (by simp [unenforced, differs])] at missing
    exact Dict.get?_eq_none.mp missing edge.1
  · intro covered
    have erased : ∀ id, id ∈ (if enforced then ids else [directory_id]) ↔
        ReflTransGen (links tables.knowledge_directory).Edge id directory_id := by
      intro id
      rcases covered with rfl | leaf
      · exact inside id
      · refine ⟨fun member => ?_, fun path => ?_⟩
        · split at member
          · exact (inside id).mp member
          · rw [List.mem_singleton.mp member]
        · rcases ReflTransGen.cases_tail path with same | ⟨child, _, edge⟩
          · exact same ▸ itself
          · exact absurd edge (leaf child)
    refine ⟨executed.file, ?_, ?_, ?_, ?_⟩
    · intro id below
      rw [executed.directories, if_pos ((erased id).mpr below)]
    · intro id outside
      rw [executed.directories, if_neg (fun member => outside ((erased id).mp member))]
    · intro key id there below
      rw [executed.links, there, Option.bind_some, if_pos]
      simpa using (inside id).mpr below
    · intro key outside
      rw [executed.links]
      cases there : tables.knowledge_file.get? key with
      | none => rfl
      | some place =>
        rw [Option.bind_some, if_neg]
        cases place with
        | none => simp
        | some id =>
          have free : id ∉ ids := fun member => outside id there ((inside id).mp member)
          simpa using free

/-- Whatever operation fails, the deletion of a directory is exact if and only if a failed one is
not left to the caller's session and the database deletes the directories below or there are none. -/
theorem delete_directory_exact_iff {shared : Bool}
    (acyclic : (links tables.knowledge_directory).Acyclic) :
    (∀ fault, ∃ outcome, delete_directory_session shared enforced fault tables directory_id
        move_files_to_parent = some outcome ∧
        DeletesExactly tables directory_id move_files_to_parent outcome ∧
        (fault = none → directory_id ∈ tables.knowledge_directory.keys → outcome.success = true)) ↔
      (directory_id ∈ tables.knowledge_directory.keys → shared = false ∧
        (enforced = true ∨ ∀ child, ¬ (links tables.knowledge_directory).Edge child directory_id)) := by
  cases found : tables.knowledge_directory.get? directory_id with
  | none =>
    have missing := Dict.get?_eq_none.mp found
    have absent : get_directory_by_id tables directory_id = none := found
    refine iff_of_true (fun fault => ⟨_, by rw [delete_directory_session, absent], ?_, ?_⟩)
      (fun stored => absurd stored missing)
    · simp [DeletesExactly, failed]
    · exact fun _ stored => absurd stored missing
  | some directory =>
    have there : get_directory_by_id tables directory_id = some directory := found
    have stored := Dict.mem_keys_of_get? found
    obtain ⟨statements, listed, itself, removed⟩ := @deletion_removes_iff enforced tables
      directory_id directory move_files_to_parent (acyclic directory_id) found
    constructor
    · intro exact_all _
      refine ⟨?_, ?_⟩
      · -- the commit fails and leaves the deletion to the caller's session
        obtain ⟨outcome, ran, exactly, _⟩ := exact_all (some ⟨statements.length, false⟩)
        simp only [delete_directory_session, there, listed, Option.map_some, Option.filter_some,
          Nat.le_refl, decide_true, if_true, List.take_length, Option.some.injEq] at ran
        subst ran
        cases shared with
        | false => rfl
        | true =>
          have unchanged : statements.foldl (Statement.execute enforced) tables = tables := exactly.2
          rw [unchanged, found] at itself
          cases itself
      · obtain ⟨outcome, ran, exactly, success⟩ := exact_all none
        simp only [delete_directory_session, there, listed, Option.map_some, Option.filter_none] at ran
        obtain rfl := Option.some.inj ran
        obtain ⟨other, again, only, _⟩ := exactly
        obtain rfl := Option.some.inj (found.symm.trans again)
        exact removed.mp only
    · intro covered fault
      obtain ⟨rfl, rest⟩ := covered stored
      simp only [delete_directory_session, there, listed, Option.map_some]
      cases reached : fault.filter (fun fault => decide (fault.after ≤ statements.length)) with
      | none =>
        refine ⟨_, rfl, ?_, fun _ _ => rfl⟩
        exact ⟨directory, found, removed.mpr rest, rfl⟩
      | some fault =>
        refine ⟨_, rfl, ?_, ?_⟩
        · simp [DeletesExactly, failed]
        · rintro rfl
          cases reached

end Removal

/-! A directory with another one in it, on a database that does not enforce its foreign keys. -/

def nested : Tables where
  file := .empty
  knowledge_directory := .ofEntries [("d", ⟨"kb", none, "Drafts"⟩), ("c", ⟨"kb", some "d", "Old"⟩)]
  knowledge_file := .empty

theorem nested_acyclic : (links nested.knowledge_directory).Acyclic := by
  refine ParentLinks.acyclic_of_rank (fun id => if id = "d" then 1 else 0) ?_
  intro child parent edge
  obtain ⟨row, found, named⟩ := edge_iff.mp edge
  have member := Dict.mem_entries_iff.mpr found
  have rows : nested.knowledge_directory.entries = [("d", ⟨"kb", none, "Drafts"⟩),
      ("c", ⟨"kb", some "d", "Old"⟩)] := by decide
  simp only [rows, List.mem_cons, Prod.mk.injEq, List.not_mem_nil, or_false] at member
  rcases member with ⟨rfl, rfl⟩ | ⟨rfl, rfl⟩
  · cases named
  · obtain rfl := Option.some.inj named
    decide

theorem nested_session_agrees : ∃ outcome after,
    delete_directory_session false true none nested "d" true = some outcome ∧
      delete_directory true nested "d" true = some after ∧
        ∀ id, outcome.committed.knowledge_directory.get? id = after.knowledge_directory.get? id := by
  obtain ⟨outcome, after, ran, deleted, _, directories, _⟩ :=
    delete_directory_session_agrees (nested_acyclic "d") (by decide)
  exact ⟨outcome, after, ran, deleted, directories⟩

/-- The call succeeds and the directory below the deleted one stays. -/
theorem child_stays : (links nested.knowledge_directory).Acyclic ∧
    ∃ outcome, delete_directory_session false false none nested "d" true = some outcome ∧
      outcome.success = true ∧
      outcome.committed.knowledge_directory.get? "c" = some ⟨"kb", some "d", "Old"⟩ ∧
      ¬ DeletesExactly nested "d" true outcome := by
  have stays : (delete_directory_session false false none nested "d" true).any (fun outcome =>
      outcome.success && decide (outcome.committed.knowledge_directory.get? "c" =
        some ⟨"kb", some "d", "Old"⟩)) = true := by decide
  obtain ⟨outcome, ran, checked⟩ := (Option.any_eq_true _ _).mp stays
  rw [Bool.and_eq_true, decide_eq_true_eq] at checked
  refine ⟨nested_acyclic, outcome, ran, checked.1, checked.2, ?_⟩
  intro exactly
  rw [DeletesExactly, if_pos checked.1] at exactly
  obtain ⟨_, _, removed, _⟩ := exactly
  have below : (links nested.knowledge_directory).Edge "c" "d" :=
    edge_iff.mpr ⟨⟨"kb", some "d", "Old"⟩, by decide, rfl⟩
  have gone := removed.gone "c" (.single below)
  rw [checked.2] at gone
  cases gone

/-- With foreign keys it goes. -/
theorem nested_deleted : ∃ outcome,
    delete_directory_session false true none nested "d" true = some outcome ∧
      DeletesExactly nested "d" true outcome ∧ outcome.success = true := by
  obtain ⟨outcome, returned, exactly_these, succeeds⟩ :=
    (delete_directory_exact_iff nested_acyclic).mpr (fun _ => ⟨rfl, .inl rfl⟩) none
  exact ⟨outcome, returned, exactly_these, succeeds rfl (by decide)⟩

end OpenWebui.Knowledge
