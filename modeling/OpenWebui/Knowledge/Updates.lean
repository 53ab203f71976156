import OpenWebui.Knowledge.WellFormed

/-! An update that moves a directory and renames it: what it returns, and when it is all or nothing. -/

namespace OpenWebui.Knowledge

open Relation

def update_directory_result (enforced : Bool) (tables : Tables) (directory_id : String)
    (name parent_id : Option String) : Option KnowledgeDirectory :=
  match if parent_id = unset then some tables else
      move_directory enforced tables directory_id parent_id with
  | none => none
  | some moved =>
    match name with
    | some name =>
      (rename_directory moved directory_id name).bind (fun renamed =>
        get_directory_by_id renamed directory_id)
    | none => get_directory_by_id moved directory_id

def requested (row : KnowledgeDirectory) (name parent_id : Option String) : KnowledgeDirectory where
  knowledge_id := row.knowledge_id
  parent_id := if parent_id = unset then row.parent_id else parent_id
  name := name.getD row.name

/-- An update that returns nothing changes nothing, and one that returns a directory has made both
changes to it alone and no cycle. -/
def AllOrNothing (enforced : Bool) (before : Tables) (directory_id : String)
    (name parent_id : Option String) : Prop :=
  let after := (update_directory enforced before directory_id name parent_id).knowledge_directory
  match update_directory_result enforced before directory_id name parent_id with
  | none => ∀ other, after.get? other = before.knowledge_directory.get? other
  | some row =>
    (∃ old, before.knowledge_directory.get? directory_id = some old ∧
      row = requested old name parent_id) ∧
    after.get? directory_id = some row ∧
    (∀ other, other ≠ directory_id → after.get? other = before.knowledge_directory.get? other) ∧
    (links after).Acyclic

/-- A move to another parent that goes through, with a new name that a directory there has. -/
structure Stranded (enforced : Bool) (tables : Tables) (directory_id : String)
    (row : KnowledgeDirectory) (name : String) (parent_id : Option String) : Prop where
  found : tables.knowledge_directory.get? directory_id = some row
  sent : parent_id ≠ unset
  moves : parent_id ≠ row.parent_id
  apart : ∀ parent, parent_id = some parent →
    ¬ ReflTransGen (links tables.knowledge_directory).Edge parent directory_id
  kept : referenced enforced tables parent_id = true
  free : clash tables directory_id { row with parent_id := parent_id } = false
  taken : clash tables directory_id { row with parent_id := parent_id, name := name } = true

section Walk

variable {tables : Tables} {directory_id : String}

theorem path_of_walkUp {fuel : Nat} {parent_id : Option String} {seen : List String}
    (finds : walkUp tables directory_id fuel parent_id seen = true) :
    ∃ parent, parent_id = some parent ∧
      ReflTransGen (links tables.knowledge_directory).Edge parent directory_id := by
  induction fuel generalizing parent_id seen with
  | zero => cases finds
  | succ fuel ih =>
    cases parent_id with
    | none => cases finds
    | some current =>
      refine ⟨current, rfl, ?_⟩
      rw [walkUp] at finds
      split at finds
      · cases finds
      split at finds
      · rename_i here
        rw [here]
      · obtain ⟨next, named, path⟩ := ih finds
        obtain ⟨row, found, same⟩ := Option.bind_eq_some_iff.mp named
        exact .head (edge_iff.mpr ⟨row, found, same⟩) path

theorem walkUp_iff (acyclic : (links tables.knowledge_directory).Acyclic)
    (generated : "" ∉ tables.knowledge_directory.keys)
    (stored : directory_id ∈ tables.knowledge_directory.keys) {parent_id : Option String} :
    walkUp tables directory_id (tables.knowledge_directory.keys.length + 2) parent_id [] = true ↔
      ∃ parent, parent_id = some parent ∧
        ReflTransGen (links tables.knowledge_directory).Edge parent directory_id := by
  constructor
  · exact path_of_walkUp
  · rintro ⟨parent, rfl, path⟩
    exact walkUp_of_path acyclic generated stored _ parent [] (above_lt_keys parent) (by simp) path

end Walk

section Update

variable {enforced : Bool} {tables : Tables} {directory_id : String} {row : KnowledgeDirectory}
  {name parent_id : Option String}

@[simp] theorem get?_setDirectory (other : String) :
    (tables.setDirectory directory_id row).knowledge_directory.get? other =
      if directory_id = other then some row else tables.knowledge_directory.get? other :=
  Dict.get?_set ..

theorem setDirectory_same (found : tables.knowledge_directory.get? directory_id = some row) :
    tables.setDirectory directory_id row = tables := by
  unfold Tables.setDirectory
  congr 1
  refine Dict.ext_of_keys (Dict.keys_set_of_mem (Dict.mem_keys_of_get? found) row) ?_
  intro other
  rw [Dict.get?_set]
  split
  · rename_i here
    rw [← here, found]
  · rfl

theorem rename_setDirectory (new_name : String) :
    rename_directory (tables.setDirectory directory_id row) directory_id new_name =
      if clash tables directory_id { row with name := new_name } then none
      else some (tables.setDirectory directory_id { row with name := new_name }) := by
  have there : get_directory_by_id (tables.setDirectory directory_id row) directory_id = some row := by
    rw [get_directory_by_id, get?_setDirectory, if_pos rfl]
  simp only [rename_directory, there, Option.bind_some, clash_setDirectory,
    setDirectory_setDirectory]

theorem allOrNothing_of_stored (acyclic : (links tables.knowledge_directory).Acyclic)
    (found : tables.knowledge_directory.get? directory_id = some row)
    (apart : ∀ parent, parent_id ≠ unset → parent_id = some parent →
      ¬ ReflTransGen (links tables.knowledge_directory).Edge parent directory_id)
    {final : KnowledgeDirectory} (same : final = requested row name parent_id)
    (after : update_directory enforced tables directory_id name parent_id =
      tables.setDirectory directory_id final)
    (returned : update_directory_result enforced tables directory_id name parent_id = some final) :
    AllOrNothing enforced tables directory_id name parent_id := by
  simp only [AllOrNothing, returned, after]
  refine ⟨⟨row, found, same⟩, ?_, ?_, setDirectory_acyclic acyclic ?_⟩
  · rw [get?_setDirectory, if_pos rfl]
  · intro other different
    rw [get?_setDirectory, if_neg (Ne.symm different)]
  · intro parent named path
    rw [same, requested] at named
    simp only at named
    split at named
    · exact acyclic directory_id (TransGen.head' (edge_iff.mpr ⟨row, found, named⟩) path)
    · rename_i sent
      exact apart parent sent named path

theorem allOrNothing_of_refused
    (after : update_directory enforced tables directory_id name parent_id = tables)
    (returned : update_directory_result enforced tables directory_id name parent_id = none) :
    AllOrNothing enforced tables directory_id name parent_id := by
  simp [AllOrNothing, returned, after]

theorem update_of_moved {moved : Tables}
    (made : (if parent_id = unset then some tables else
      move_directory enforced tables directory_id parent_id) = some moved) :
    update_directory enforced tables directory_id name parent_id =
        (match name with
        | some name => (rename_directory moved directory_id name).getD moved
        | none => moved) ∧
      update_directory_result enforced tables directory_id name parent_id =
        (match name with
        | some name => (rename_directory moved directory_id name).bind (fun renamed =>
            get_directory_by_id renamed directory_id)
        | none => get_directory_by_id moved directory_id) := by
  unfold update_directory update_directory_result
  rw [made]
  cases name <;> exact ⟨rfl, rfl⟩

theorem update_of_refused (refused : (if parent_id = unset then some tables else
      move_directory enforced tables directory_id parent_id) = none) :
    AllOrNothing enforced tables directory_id name parent_id := by
  refine allOrNothing_of_refused ?_ ?_
  · simp only [update_directory, refused]
  · simp only [update_directory_result, refused]

theorem stored_row : get_directory_by_id (tables.setDirectory directory_id row) directory_id =
    some row := by
  rw [get_directory_by_id, get?_setDirectory, if_pos rfl]

theorem moved_allOrNothing_iff (acyclic : (links tables.knowledge_directory).Acyclic)
    (found : tables.knowledge_directory.get? directory_id = some row)
    (apart : ∀ parent, parent_id ≠ unset → parent_id = some parent →
      ¬ ReflTransGen (links tables.knowledge_directory).Edge parent directory_id)
    {place : Option String} (placed : place = if parent_id = unset then row.parent_id else parent_id)
    (made : (if parent_id = unset then some tables else
      move_directory enforced tables directory_id parent_id) =
        some (tables.setDirectory directory_id { row with parent_id := place })) :
    AllOrNothing enforced tables directory_id name parent_id ↔
      ∀ new_name, name = some new_name → place ≠ row.parent_id →
        clash tables directory_id { row with parent_id := place, name := new_name } = false := by
  obtain ⟨after, returned⟩ := @update_of_moved enforced tables directory_id name parent_id _ made
  cases name with
  | none =>
    refine iff_of_true (allOrNothing_of_stored acyclic found apart ?_ after ?_) (by simp)
    · simp [requested, placed]
    · rw [returned]
      exact stored_row
  | some new_name =>
    simp only [rename_setDirectory] at after returned
    cases taken : clash tables directory_id { row with parent_id := place, name := new_name } with
    | false =>
      simp only [taken, Bool.false_eq_true, if_false, Option.getD_some, Option.bind_some,
        stored_row] at after returned
      refine iff_of_true (allOrNothing_of_stored acyclic found apart ?_ after returned) ?_
      · simp [requested, placed]
      · rintro _ ⟨⟩ _
        exact taken
    | true =>
      simp only [taken, if_true, Option.getD_none, Option.bind_none] at after returned
      by_cases stays : place = row.parent_id
      · refine iff_of_true (allOrNothing_of_refused ?_ returned)
          (fun _ _ moves => absurd stays moves)
        rw [after, stays]
        exact setDirectory_same found
      · refine iff_of_false ?_ ?_
        · intro whole
          simp only [AllOrNothing, returned, after] at whole
          have same := whole directory_id
          rw [get?_setDirectory, if_pos rfl, found] at same
          exact stays (congrArg KnowledgeDirectory.parent_id (Option.some.inj same))
        · intro free
          have unclashed := free new_name rfl stays
          rw [taken] at unclashed
          cases unclashed

/-- An update is all or nothing exactly when no renaming is refused after a move. -/
theorem update_directory_all_or_nothing_iff (acyclic : (links tables.knowledge_directory).Acyclic)
    (generated : "" ∉ tables.knowledge_directory.keys) :
    AllOrNothing enforced tables directory_id name parent_id ↔
      ∀ row new_name, name = some new_name →
        ¬ Stranded enforced tables directory_id row new_name parent_id := by
  cases found : tables.knowledge_directory.get? directory_id with
  | none =>
    have absent : get_directory_by_id tables directory_id = none := found
    refine iff_of_true ?_ ?_
    · by_cases sent : parent_id = unset
      · refine allOrNothing_of_refused ?_ ?_
        · cases name <;> simp [update_directory, sent, rename_directory, absent]
        · cases name <;> simp [update_directory_result, sent, rename_directory, absent]
      · exact update_of_refused (by simp [sent, move_directory, absent])
    · intro row new_name _ stranded
      rw [stranded.found] at found
      cases found
  | some row =>
    have there : get_directory_by_id tables directory_id = some row := found
    have finds := @walkUp_iff tables directory_id acyclic generated (Dict.mem_keys_of_get? found)
      parent_id
    by_cases sent : parent_id = unset
    · have unmoved : (if parent_id = unset then some tables else
          move_directory enforced tables directory_id parent_id) =
            some (tables.setDirectory directory_id { row with parent_id := row.parent_id }) := by
        rw [if_pos sent, setDirectory_same found]
      rw [moved_allOrNothing_iff acyclic found (fun _ moved => absurd sent moved)
        (if_pos sent).symm unmoved]
      exact iff_of_true (fun _ _ moves => absurd rfl moves)
        (fun _ _ _ stranded => stranded.sent sent)
    · cases made : move_directory enforced tables directory_id parent_id with
      | none =>
        refine iff_of_true (update_of_refused (by rw [if_neg sent, made])) ?_
        intro other new_name _ stranded
        obtain rfl := Option.some.inj (found.symm.trans stranded.found)
        have clear : walkUp tables directory_id (tables.knowledge_directory.keys.length + 2)
            parent_id [] = false := by
          refine Bool.eq_false_iff.mpr (fun finding => ?_)
          obtain ⟨parent, named, path⟩ := finds.mp finding
          exact stranded.apart parent named path
        simp [move_directory, clear, there, stranded.free, stranded.kept] at made
      | some moved =>
        simp only [move_directory, there, Option.bind_some] at made
        split at made
        · cases made
        rename_i clear
        split at made
        · cases made
        rename_i accepted
        obtain rfl := Option.some.inj made
        simp only [Bool.or_eq_true, Bool.not_eq_true', not_or, Bool.not_eq_false,
          Bool.not_eq_true] at accepted clear
        have apart : ∀ parent, parent_id = some parent →
            ¬ ReflTransGen (links tables.knowledge_directory).Edge parent directory_id := by
          intro parent named path
          rw [finds.mpr ⟨parent, named, path⟩] at clear
          cases clear
        rw [moved_allOrNothing_iff acyclic found (fun parent _ => apart parent) (if_neg sent).symm
          (by rw [if_neg sent, move_directory, if_neg (by simp [clear]), there]; simp [accepted])]
        constructor
        · intro free other new_name named stranded
          obtain rfl := Option.some.inj (found.symm.trans stranded.found)
          have taken := stranded.taken
          rw [free new_name named stranded.moves] at taken
          cases taken
        · intro whole new_name named moves
          refine Bool.eq_false_iff.mpr (fun taken => ?_)
          exact whole row new_name named
            ⟨found, sent, moves, apart, accepted.2, accepted.1, taken⟩

end Update

/-! A directory that is moved into another one, where its new name is taken. -/

def drafts : Tables where
  file := .empty
  knowledge_directory := .ofEntries [("d", ⟨"kb", none, "Drafts"⟩), ("p", ⟨"kb", none, "Plans"⟩),
    ("s", ⟨"kb", some "p", "Final"⟩)]
  knowledge_file := .empty

theorem drafts_acyclic : (links drafts.knowledge_directory).Acyclic := by
  refine ParentLinks.acyclic_of_rank (fun id => if id = "p" then 1 else 0) ?_
  intro child parent edge
  obtain ⟨row, found, named⟩ := edge_iff.mp edge
  have member := Dict.mem_entries_iff.mpr found
  have rows : drafts.knowledge_directory.entries = [("d", ⟨"kb", none, "Drafts"⟩),
      ("p", ⟨"kb", none, "Plans"⟩), ("s", ⟨"kb", some "p", "Final"⟩)] := by decide
  simp only [rows, List.mem_cons, Prod.mk.injEq, List.not_mem_nil, or_false] at member
  rcases member with ⟨rfl, rfl⟩ | ⟨rfl, rfl⟩ | ⟨rfl, rfl⟩
  · cases named
  · cases named
  · obtain rfl := Option.some.inj named
    decide

theorem drafts_generated : "" ∉ drafts.knowledge_directory.keys := by decide

/-- The renaming is refused, the move stays. -/
theorem taken_name_leaves_move : (links drafts.knowledge_directory).Acyclic ∧
    "" ∉ drafts.knowledge_directory.keys ∧
    update_directory_result true drafts "d" (some "Final") (some "p") = none ∧
    (update_directory true drafts "d" (some "Final") (some "p")).knowledge_directory.get? "d" =
      some ⟨"kb", some "p", "Drafts"⟩ ∧
    ¬ AllOrNothing true drafts "d" (some "Final") (some "p") := by
  have returned : update_directory_result true drafts "d" (some "Final") (some "p") = none := by
    decide
  have after : (update_directory true drafts "d" (some "Final")
      (some "p")).knowledge_directory.get? "d" = some ⟨"kb", some "p", "Drafts"⟩ := by decide
  refine ⟨drafts_acyclic, drafts_generated, returned, after, ?_⟩
  intro whole
  simp only [AllOrNothing, returned] at whole
  have same := whole "d"
  rw [after] at same
  revert same
  decide

/-- A move alone. -/
theorem drafts_moved : AllOrNothing true drafts "d" none (some "p") :=
  (update_directory_all_or_nothing_iff drafts_acyclic drafts_generated).mpr
    (fun _ _ named => nomatch named)

end OpenWebui.Knowledge
