import OpenWebui.Base.ParentLinks
import OpenWebui.Base.Text
import OpenWebui.Folders.Table

/-! The tables of files, of the directories of knowledge bases, and of the files in them. -/

namespace OpenWebui.Knowledge

structure FileModel where
  user_id : String
  hash : Option String
  filename : String
  data : Option Fields
  file_meta : Option Fields
  created_at : Option Int
  updated_at : Option Int
deriving DecidableEq

structure KnowledgeDirectory where
  knowledge_id : String
  parent_id : Option String
  name : String
deriving DecidableEq

abbrev DirectoryModel := String × KnowledgeDirectory

/-- The rows by their ids; a file is in a knowledge base once, and in a directory of it or at its
root. -/
structure Tables where
  file : Dict String FileModel
  knowledge_directory : Dict String KnowledgeDirectory
  knowledge_file : Dict (String × String) (Option String)

abbrev PlacedFile := (String × FileModel) × Option String

section Queries

variable (tables : Tables)

def get_directory_by_id (directory_id : String) : Option KnowledgeDirectory :=
  tables.knowledge_directory.get? directory_id

def byName (first second : DirectoryModel) : Bool := decide (first.2.name ≤ second.2.name)

def get_directories (knowledge_id : String) (parent_id : Option String) : List DirectoryModel :=
  (tables.knowledge_directory.entries.filter (fun row =>
    decide (row.2.knowledge_id = knowledge_id) &&
      decide (row.2.parent_id = parent_id.filter (fun id => decide (id ≠ ""))))).mergeSort byName

def get_all_directories (knowledge_id : String) : List DirectoryModel :=
  (tables.knowledge_directory.entries.filter (fun row =>
    decide (row.2.knowledge_id = knowledge_id))).mergeSort byName

def get_files_with_directory_ids (knowledge_id : String) : List PlacedFile :=
  tables.knowledge_file.entries.filterMap (fun row =>
    if row.1.1 = knowledge_id then
      (tables.file.get? row.1.2).map (fun file => ((row.1.2, file), row.2))
    else none)

def has_file (knowledge_id file_id : String) : Bool :=
  decide ((knowledge_id, file_id) ∈ tables.knowledge_file.keys)

def segments (path : String) : List String :=
  (Text.split '/' (((path.toList.dropWhile (fun char => decide (char = '/'))).reverse.dropWhile
    (fun char => decide (char = '/'))).reverse)).map String.ofList

def walkDown (knowledge_id : String) : List String → Option String → Option (Option String)
  | [], current_parent => some current_parent
  | part :: rest, current_parent =>
    match (get_directories tables knowledge_id current_parent).find?
      (fun directory => decide (directory.2.name = part)) with
    | some found => walkDown knowledge_id rest (some found.1)
    | none => none

def resolve_dir_path (path knowledge_id : String) : Option String :=
  (walkDown tables knowledge_id (segments path) none).join

end Queries

def links (directories : Dict String KnowledgeDirectory) : ParentLinks String where
  nodes := directories.keys
  parent id := (directories.get? id).bind (fun row => row.parent_id)
  children id :=
    (directories.entries.filter (fun row => decide (row.2.parent_id = some id))).map Prod.fst

def subtree (directories : Dict String KnowledgeDirectory) : Nat → String → Option (List String)
  | 0, _ => none
  | fuel + 1, id =>
    ((links directories).children id).foldlM (fun ids child =>
      (subtree directories fuel child).map (fun deeper => ids ++ deeper)) [id]

section Links

variable {directories : Dict String KnowledgeDirectory}

theorem edge_iff {child parent : String} :
    (links directories).Edge child parent ↔
      ∃ row, directories.get? child = some row ∧ row.parent_id = some parent := by
  constructor
  · rintro ⟨_, named⟩
    obtain ⟨row, found, same⟩ := Option.bind_eq_some_iff.mp named
    exact ⟨row, found, same⟩
  · rintro ⟨row, found, same⟩
    exact ⟨Dict.mem_keys_of_get? found, Option.bind_eq_some_iff.mpr ⟨row, found, same⟩⟩

theorem parent_unique : Relator.RightUnique (links directories).Edge := by
  intro child first second one two
  exact Option.some.inj (one.2.symm.trans two.2)

theorem mem_children {child parent : String} :
    child ∈ (links directories).children parent ↔ (links directories).Edge child parent := by
  rw [edge_iff]
  constructor
  · intro member
    obtain ⟨row, kept, rfl⟩ := List.mem_map.mp member
    obtain ⟨stored, named⟩ := List.mem_filter.mp kept
    exact ⟨row.2, Dict.mem_entries_iff.mp stored, of_decide_eq_true named⟩
  · rintro ⟨row, found, named⟩
    exact List.mem_map.mpr ⟨(child, row),
      List.mem_filter.mpr ⟨Dict.mem_entries_iff.mpr found, decide_eq_true named⟩, rfl⟩

end Links

section Queried

variable {tables : Tables} {knowledge_id : String}

theorem mem_get_directories {parent_id : Option String} {directory : DirectoryModel} :
    directory ∈ get_directories tables knowledge_id parent_id ↔
      tables.knowledge_directory.get? directory.1 = some directory.2 ∧
        directory.2.knowledge_id = knowledge_id ∧
          directory.2.parent_id = parent_id.filter (fun id => decide (id ≠ "")) := by
  rw [get_directories, List.mem_mergeSort, List.mem_filter, Bool.and_eq_true, decide_eq_true_iff,
    decide_eq_true_iff]
  exact and_congr_left' Dict.mem_entries_iff

theorem mem_get_all_directories {directory : DirectoryModel} :
    directory ∈ get_all_directories tables knowledge_id ↔
      tables.knowledge_directory.get? directory.1 = some directory.2 ∧
        directory.2.knowledge_id = knowledge_id := by
  rw [get_all_directories, List.mem_mergeSort, List.mem_filter, decide_eq_true_iff]
  exact and_congr_left' Dict.mem_entries_iff

theorem mem_get_files {placed : PlacedFile} :
    placed ∈ get_files_with_directory_ids tables knowledge_id ↔
      tables.knowledge_file.get? (knowledge_id, placed.1.1) = some placed.2 ∧
        tables.file.get? placed.1.1 = some placed.1.2 := by
  rw [get_files_with_directory_ids, List.mem_filterMap]
  constructor
  · rintro ⟨⟨⟨id, file_id⟩, directory_id⟩, member, read⟩
    split at read
    · rename_i here
      obtain rfl : id = knowledge_id := here
      obtain ⟨file, found, rfl⟩ := Option.map_eq_some_iff.mp read
      exact ⟨Dict.mem_entries_iff.mp member, found⟩
    · cases read
  · rintro ⟨stored, found⟩
    refine ⟨((knowledge_id, placed.1.1), placed.2), Dict.mem_entries_iff.mpr stored, ?_⟩
    rw [if_pos rfl, found]
    rfl

end Queried

abbrev GeneratedId := {id : String // id ≠ ""}

/-- A request of a user who may write to the knowledge base. -/
inductive Request where
  | create_directory (id : GeneratedId) (knowledge_id name : String) (parent_id : Option String)
  | update_directory (knowledge_id dir_id : String) (name parent_id : Option String)
  | delete_directory (knowledge_id dir_id : String) (move_files : Bool)
  | add_file (knowledge_id file_id : String) (directory_id : Option String)
  | move_file (knowledge_id file_id : String) (directory_id : Option String)

def unset : Option String := some "__unset__"

def Tables.setDirectory (tables : Tables) (id : String) (row : KnowledgeDirectory) : Tables :=
  { tables with knowledge_directory := tables.knowledge_directory.set id row }

def clash (tables : Tables) (id : String) (row : KnowledgeDirectory) : Bool :=
  row.parent_id.isSome && tables.knowledge_directory.entries.any (fun other =>
    decide (other.1 ≠ id ∧ other.2 = row))

section Requests

variable (enforced : Bool) (tables : Tables)

def referenced (directory_id : Option String) : Bool :=
  !enforced || directory_id.all (fun id => decide (id ∈ tables.knowledge_directory.keys))

def create_directory (id : GeneratedId) (knowledge_id name : String) (parent_id : Option String) :
    Option Tables :=
  let row := ⟨knowledge_id, parent_id, name⟩
  if id.1 ∈ tables.knowledge_directory.keys || clash tables id.1 row ||
      !referenced enforced tables parent_id then none
  else some (tables.setDirectory id.1 row)

def rename_directory (directory_id name : String) : Option Tables :=
  (get_directory_by_id tables directory_id).bind (fun row =>
    let renamed := { row with name := name }
    if clash tables directory_id renamed then none
    else some (tables.setDirectory directory_id renamed))

def walkUp (directory_id : String) : Nat → Option String → List String → Bool
  | 0, _, _ => false
  | _, none, _ => false
  | fuel + 1, some current, seen =>
    if current = "" ∨ current ∈ seen then false
    else if current = directory_id then true
    else walkUp directory_id fuel
      ((get_directory_by_id tables current).bind (fun row => row.parent_id)) (current :: seen)

def move_directory (directory_id : String) (new_parent_id : Option String) : Option Tables :=
  if walkUp tables directory_id (tables.knowledge_directory.keys.length + 2) new_parent_id [] then none
  else
    (get_directory_by_id tables directory_id).bind (fun row =>
      let moved := { row with parent_id := new_parent_id }
      if clash tables directory_id moved || !referenced enforced tables new_parent_id then none
      else some (tables.setDirectory directory_id moved))

/-- The tables after the move and the renaming that an update asks for. A renaming that fails does
not undo the move. -/
def update_directory (directory_id : String) (name parent_id : Option String) : Tables :=
  match if parent_id = unset then some tables else
      move_directory enforced tables directory_id parent_id with
  | none => tables
  | some moved =>
    match name with
    | some name => (rename_directory moved directory_id name).getD moved
    | none => moved

/-- The directory is deleted, its files and those below it move to its parent or are taken out of
the knowledge base. Only a foreign key deletes the directories below it; no file is in one of them
by then. -/
def delete_directory (directory_id : String) (move_files_to_parent : Bool) : Option Tables :=
  (get_directory_by_id tables directory_id).bind (fun directory =>
    (subtree tables.knowledge_directory (tables.knowledge_directory.keys.length + 1)
      directory_id).map (fun ids =>
        { tables with
          knowledge_directory :=
            (if enforced then ids else [directory_id]).foldl Dict.erase tables.knowledge_directory
          knowledge_file :=
            if move_files_to_parent then
              tables.knowledge_file.mapValue (fun _ directory_id =>
                if directory_id.any (fun id => decide (id ∈ ids)) then directory.parent_id
                else directory_id)
            else
              ((tables.knowledge_file.entries.filter (fun row =>
                row.2.any (fun id => decide (id ∈ ids)))).map Prod.fst).foldl Dict.erase
                  tables.knowledge_file }))

def add_file_to_knowledge_by_id (knowledge_id file_id : String) (directory_id : Option String) :
    Option Tables :=
  if has_file tables knowledge_id file_id || !referenced enforced tables directory_id then none
  else some { tables with
    knowledge_file := tables.knowledge_file.set (knowledge_id, file_id) directory_id }

def move_file_to_directory (knowledge_id file_id : String) (directory_id : Option String) :
    Option Tables :=
  if referenced enforced tables directory_id then
    some { tables with
      knowledge_file := tables.knowledge_file.modify (knowledge_id, file_id) (fun _ => directory_id) }
  else none

def inKnowledge (knowledge_id directory_id : String) : Bool :=
  (get_directory_by_id tables directory_id).any (fun row =>
    decide (row.knowledge_id = knowledge_id))

def processed (file_id : String) : Bool :=
  (tables.file.get? file_id).any (fun file => file.data.any (fun data => !data.isEmpty))

def handle : Request → Tables
  | .create_directory id knowledge_id name parent_id =>
    (create_directory enforced tables id knowledge_id name parent_id).getD tables
  | .update_directory knowledge_id dir_id name parent_id =>
    if inKnowledge tables knowledge_id dir_id then
      update_directory enforced tables dir_id name parent_id
    else tables
  | .delete_directory knowledge_id dir_id move_files =>
    if inKnowledge tables knowledge_id dir_id then
      (delete_directory enforced tables dir_id move_files).getD tables
    else tables
  | .add_file knowledge_id file_id directory_id =>
    if processed tables file_id then
      (add_file_to_knowledge_by_id enforced tables knowledge_id file_id directory_id).getD tables
    else tables
  | .move_file knowledge_id file_id directory_id =>
    if has_file tables knowledge_id file_id &&
        (directory_id.filter (fun id => decide (id ≠ ""))).all (inKnowledge tables knowledge_id) then
      (move_file_to_directory enforced tables knowledge_id file_id directory_id).getD tables
    else tables

abbrev after (requests : List Request) : Tables := requests.foldl (handle enforced) tables

end Requests

end OpenWebui.Knowledge
