import Mathlib.Algebra.BigOperators.Group.List.Basic
import Mathlib.Algebra.GroupWithZero.Nat
import OpenWebui.Base.Paths
import OpenWebui.Knowledge.WellFormed

/-! Where the files of a knowledge base are listed: by the listing of a directory, by `ls` and by
`tree`. -/

namespace OpenWebui.Knowledge

open Relation

section Listings

variable (tables : Tables)

def search_files_by_id (knowledge_id : String) (directory_id : Option String) : List PlacedFile :=
  (get_files_with_directory_ids tables knowledge_id).filter (fun placed =>
    decide (placed.2 = directory_id.filter (fun id => decide (id ≠ ""))))

/-- The files that `ls` shows in a directory. -/
def filesAt (knowledge_id : String) (directory_id : Option String) : List PlacedFile :=
  (get_files_with_directory_ids tables knowledge_id).filter (fun placed =>
    decide (placed.2 = directory_id))

end Listings

inductive TreeLine where
  | dir (indent name : String)
  | file (indent file_id filename : String)

def TreeLine.text : TreeLine → String
  | dir indent name => indent ++ "📁 " ++ name ++ "/"
  | file indent _ filename => indent ++ filename

def connector (is_last : Bool) : String := if is_last then "└── " else "├── "

def childIndent (is_last : Bool) : String := if is_last then "    " else "│   "

section Render

variable (dirs : List DirectoryModel) (files : List PlacedFile)

def get_subdirs (parent_id : Option String) : List DirectoryModel :=
  (dirs.filter (fun directory => decide (directory.2.parent_id = parent_id))).mergeSort byName

def get_files_in_dir (dir_id : Option String) : List PlacedFile :=
  files.filter (fun placed => decide (placed.2 = dir_id))

def renderTree : Nat → Option String → String → List TreeLine
  | 0, _, _ => []
  | fuel + 1, parent_id, indent =>
    let subdirs := get_subdirs dirs parent_id
    let inside := get_files_in_dir files parent_id
    let total := subdirs.length + inside.length
    subdirs.zipIdx.flatMap (fun entry =>
      let is_last := decide (entry.2 + 1 = total)
      .dir (indent ++ connector is_last) entry.1.2.name ::
        renderTree fuel (some entry.1.1) (indent ++ childIndent is_last)) ++
      inside.zipIdx.map (fun entry =>
        .file (indent ++ connector (decide (subdirs.length + entry.2 + 1 = total))) entry.1.1.1
          entry.1.1.2.filename)

end Render

def treeLines (tables : Tables) (knowledge_id : String) : List TreeLine :=
  let dirs := get_all_directories tables knowledge_id
  renderTree dirs (get_files_with_directory_ids tables knowledge_id) (dirs.length + 1) none "  "

def TreeLine.isFile (file_id : String) : TreeLine → Bool
  | dir _ _ => false
  | file _ id _ => decide (id = file_id)

/-- A file of a knowledge base is listed in exactly one place. -/
structure ListedOnce (tables : Tables) (knowledge_id file_id : String) : Prop where
  listing : ∃! directory_id : Option String,
    (∀ id, directory_id = some id → Belongs tables knowledge_id id) ∧
      file_id ∈ (search_files_by_id tables knowledge_id directory_id).map (fun placed => placed.1.1)
  ls : ∃! directory_id : Option String,
    (∀ id, directory_id = some id → ∃ path, resolve_dir_path tables path knowledge_id = some id) ∧
      file_id ∈ (filesAt tables knowledge_id directory_id).map (fun placed => placed.1.1)
  tree : (treeLines tables knowledge_id).countP (TreeLine.isFile file_id) = 1

def joinPath (names : List String) : String :=
  String.ofList (['/'].intercalate (names.map String.toList))

def splitPath (path : String) : List String := (Text.split '/' path.toList).map String.ofList

theorem joinPath_splitPath (path : String) : joinPath (splitPath path) = path := by
  simp [joinPath, splitPath, Function.comp_def, Text.intercalate_split]

section Names

variable {names : List String} (free : ∀ name ∈ names, '/' ∉ name.toList)

include free

theorem free_toList : ∀ name ∈ names.map String.toList, '/' ∉ name := by
  intro name member
  obtain ⟨text, there, rfl⟩ := List.mem_map.mp member
  exact free text there

theorem splitPath_joinPath (some_name : names ≠ []) : splitPath (joinPath names) = names := by
  rw [splitPath, joinPath, String.toList_ofList,
    Text.split_intercalate (free_toList free) (by simpa using some_name), List.map_map]
  simp [Function.comp_def]

end Names

theorem segments_joinPath {names : List String} (ok : ∀ name ∈ names, NameOk name)
    (some_name : names ≠ []) : segments (joinPath names) = names := by
  have free : ∀ name ∈ names, '/' ∉ name.toList := fun name member => (ok name member).2
  have filled : ∀ name ∈ names.map String.toList, name ≠ [] := by
    intro name member
    obtain ⟨text, there, rfl⟩ := List.mem_map.mp member
    intro empty
    exact (ok text there).1 (String.toList_eq_nil_iff.mp empty)
  obtain ⟨⟨head, first, no_head⟩, ⟨tail, last, no_tail⟩⟩ :=
    Text.intercalate_ends (free_toList free) filled (by simpa using some_name)
  have backwards : ((['/'].intercalate (names.map String.toList)).reverse).head? = some tail := by
    rw [List.head?_reverse, last]
  have read := splitPath_joinPath free some_name
  rw [splitPath, joinPath, String.toList_ofList] at read
  rw [segments, joinPath, String.toList_ofList,
    Text.dropWhile_of_head first (by simpa using no_head),
    Text.dropWhile_of_head backwards (by simpa using no_tail), List.reverse_reverse, read]

section Directories

variable {tables : Tables} {knowledge_id id : String}

theorem keys_get_all_directories :
    ((get_all_directories tables knowledge_id).map Prod.fst).Nodup := by
  have sorted := (List.mergeSort_perm (tables.knowledge_directory.entries.filter (fun row =>
    decide (row.2.knowledge_id = knowledge_id))) byName).map Prod.fst
  refine sorted.nodup_iff.mpr ?_
  exact tables.knowledge_directory.keys_nodup.sublist (List.filter_sublist.map Prod.fst)

theorem lookup_get_all_directories {row : KnowledgeDirectory}
    (found : tables.knowledge_directory.get? id = some row)
    (here : row.knowledge_id = knowledge_id) :
    (get_all_directories tables knowledge_id).lookup id = some row := by
  have listed : (id, row) ∈ get_all_directories tables knowledge_id :=
    mem_get_all_directories.mpr ⟨found, here⟩
  exact Assoc.lookup_of_mem keys_get_all_directories listed

end Directories

end OpenWebui.Knowledge
