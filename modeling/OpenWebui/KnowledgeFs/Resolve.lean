import OpenWebui.AccessGrants.Deciders
import OpenWebui.Base.Reach
import OpenWebui.Base.Text
import OpenWebui.Knowledge.Listing
import OpenWebui.Knowledge.Requests

/-! How a command line over knowledge bases is taken apart: pipes, shell words, flags, numbers and
patterns. -/

namespace OpenWebui.KnowledgeFs

/-- What the interpreter and its libraries do with characters, numbers, dates, patterns and sets. -/
structure Platform where
  isdigit : Char → Bool
  decimal : Char → Option Nat
  lower : String → String
  lower_ascii : ∀ text, (∀ char ∈ text.toList, 'a' ≤ char ∧ char ≤ 'z') → lower text = text
  /-- `str(value)`. -/
  str : Json → String
  /-- `f'{value:,}'`. -/
  commas : Json → Except String String
  commas_number : ∀ value : Nat, ∃ text, commas (.num value) = .ok text
  /-- The time in the format, in UTC. -/
  strftime : String → Int → Except String String
  fnmatch : String → String → Bool
  /-- Why a pattern does not compile, with or without regard to case. -/
  regexError : String → Bool → Option String
  /-- Whether a line has a match, none when the time left was not enough, and the time taken. -/
  regexSearch : String → Bool → String → Int → Option Bool × Int
  /-- The order in which a set is iterated that was built from the items. -/
  setOrder : List String → List String
  mem_setOrder : ∀ items item, item ∈ setOrder items ↔ item ∈ items
  nodup_setOrder : ∀ items, (setOrder items).Nodup

structure Limits where
  kb_exec_max_grep_files : Nat
  knowledge_grep_max_matches : Nat
  kb_exec_max_output_chars : Nat

section Words

def wordsFrom : List Char → List Char → List (List Char)
  | word, [] => if word = [] then [] else [word]
  | word, char :: rest =>
    if Text.isSpace char then
      if word = [] then wordsFrom [] rest else word :: wordsFrom [] rest
    else wordsFrom (word ++ [char]) rest

/-- `text.split()`. -/
def words (text : List Char) : List (List Char) := wordsFrom [] text

inductive Lexing where
  | blank
  | word
  | quoted (quote : Char)
  | escaped (quote : Option Char)

def shellSpace (char : Char) : Bool :=
  decide (char = ' ' ∨ char = '\t' ∨ char = '\r' ∨ char = '\n')

def isQuote (char : Char) : Bool := decide (char = '\'' ∨ char = '"')

def emit (token : List Char) (quoted : Bool) (tokens : List (List Char)) : List (List Char) :=
  if token = [] ∧ quoted = false then tokens else token :: tokens

def shellWords : Lexing → List Char → Bool → List Char → Option (List (List Char))
  | .blank, _, _, [] => some []
  | .blank, _, _, char :: rest =>
    if shellSpace char then shellWords .blank [] false rest
    else if char = '\\' then shellWords (.escaped none) [] false rest
    else if isQuote char then shellWords (.quoted char) [] false rest
    else shellWords .word [char] false rest
  | .word, token, quoted, [] => some (emit token quoted [])
  | .word, token, quoted, char :: rest =>
    if shellSpace char then (shellWords .blank [] false rest).map (emit token quoted)
    else if isQuote char then shellWords (.quoted char) token quoted rest
    else if char = '\\' then shellWords (.escaped none) token quoted rest
    else shellWords .word (token ++ [char]) quoted rest
  | .quoted _, _, _, [] => none
  | .quoted quote, token, _, char :: rest =>
    if char = quote then shellWords .word token true rest
    else if char = '\\' ∧ quote = '"' then shellWords (.escaped (some quote)) token true rest
    else shellWords (.quoted quote) (token ++ [char]) true rest
  | .escaped _, _, _, [] => none
  | .escaped none, token, quoted, char :: rest => shellWords .word (token ++ [char]) quoted rest
  | .escaped (some quote), token, quoted, char :: rest =>
    shellWords (.quoted quote)
      (token ++ if char ≠ '\\' ∧ char ≠ quote then ['\\', char] else [char]) quoted rest

def splitPipes : Bool → Bool → List Char → List Char → List (List Char)
  | _, _, buf, [] => [buf]
  | in_single, in_double, buf, ch :: rest =>
    if ch = '\'' ∧ in_double = false then splitPipes (!in_single) in_double (buf ++ [ch]) rest
    else if ch = '"' ∧ in_single = false then splitPipes in_single (!in_double) (buf ++ [ch]) rest
    else if ch = '|' ∧ in_single = false ∧ in_double = false then
      buf :: splitPipes in_single in_double [] rest
    else splitPipes in_single in_double (buf ++ [ch]) rest

def tokenize (seg : List Char) : List String :=
  ((shellWords .blank [] false seg).getD (words seg)).map String.ofList

def parse_pipeline (command : String) : List (List String) :=
  (splitPipes false false [] command.toList).filterMap (fun buf =>
    let tokens := tokenize (Text.strip buf)
    if tokens = [] then none else some tokens)

end Words

section Arguments

variable (platform : Platform)

def isFlags (token : String) : Bool :=
  match token.toList with
  | '-' :: rest => !rest.isEmpty && !rest.all platform.isdigit
  | _ => false

def extract_flags (tokens : List String) : List Char × List String :=
  ((tokens.filter (isFlags platform)).flatMap (fun token => token.toList.drop 1),
    tokens.filter (fun token => !isFlags platform token))

def readNumber : List Char → Option Nat → Option (Nat × List Char)
  | [], number => number.map (fun number => (number, []))
  | char :: rest, number =>
    match platform.decimal char with
    | some digit => readNumber rest (some (number.getD 0 * 10 + digit))
    | none => number.map (fun number => (number, char :: rest))

def atEnd (text : List Char) : Bool := decide (text = [] ∨ text = ['\n'])

/-- The number of a token such as `-20`. -/
def numericFlag (token : String) : Option Nat :=
  match token.toList with
  | '-' :: rest =>
    (readNumber platform rest none).bind (fun read => if atEnd read.2 then some read.1 else none)
  | _ => none

def extract_numeric_flag : List String → Option Nat × List String
  | [] => (none, [])
  | token :: rest =>
    match numericFlag platform token with
    | some num => (some num, rest)
    | none =>
      let later := extract_numeric_flag rest
      (later.1, token :: later.2)

def skip (char : Char) (text : List Char) : List Char :=
  if text.head? = some char then text.drop 1 else text

/-- A range such as `40,60p`, in single quotes or without. -/
def lineRange (quotes : Bool) (token : String) : Option (Nat × Nat) :=
  let text := if quotes then skip '\'' token.toList else token.toList
  (readNumber platform text none).bind (fun start =>
    match start.2 with
    | ',' :: later =>
      (readNumber platform later none).bind (fun last =>
        let rest := skip 'p' last.2
        if atEnd (if quotes then skip '\'' rest else rest) then some (start.1, last.1) else none)
    | _ => none)

end Arguments

section Patterns

variable (platform : Platform)

/-- `part in text`. -/
def occurs (part : List Char) : List Char → Bool
  | [] => part.isEmpty
  | char :: rest => part.isPrefixOf (char :: rest) || occurs part rest

def bracketed : List Char → Bool
  | [] => false
  | char :: rest =>
    (decide (char = '[') && (match rest with
      | first :: later => decide (first ≠ '\n') && (later.takeWhile (fun other =>
          decide (other ≠ '\n'))).contains ']'
      | [] => false)) || bracketed rest

def is_regex_pattern (pattern : String) : Bool :=
  ["|", ".*", ".+", ".?", "\\d", "\\w", "\\s"].any (fun part =>
    occurs part.toList pattern.toList) || bracketed pattern.toList

def unescapeBar : List Char → List Char
  | '\\' :: '|' :: rest => '|' :: unescapeBar rest
  | char :: rest => char :: unescapeBar rest
  | [] => []

def normalize_regex (pattern : String) : String :=
  String.ofList (unescapeBar (unescapeBar pattern.toList))

abbrev Exec := StateT Int (Except String)

def matchBudget : Int := 2000000

def budgetExceeded : String := "Search exceeded 2s, narrow the pattern"

def build_matcher (pattern : String) (case_insensitive use_regex : Bool) :
    Except String (String → Exec Bool) :=
  if use_regex || is_regex_pattern pattern then
    let normalized := normalize_regex pattern
    match platform.regexError normalized case_insensitive with
    | some error => .error ("Invalid regex: " ++ error)
    | none => .ok (fun line => do
        let remaining ← get
        if remaining ≤ 0 then throw budgetExceeded
        else
          let (found, taken) := platform.regexSearch normalized case_insensitive line remaining
          set (remaining - taken)
          match found with
          | some answer => pure answer
          | none => throw budgetExceeded)
  else
    let sp := if case_insensitive then platform.lower pattern else pattern
    .ok (fun line => pure (occurs sp.toList
      (if case_insensitive then platform.lower line else line).toList))

end Patterns

def quoteChar (char : Char) : List Char :=
  if char = '\'' then ['\'', '"', '\'', '"', '\''] else [char]

def quote (text : List Char) : List Char := '\'' :: (text.flatMap quoteChar ++ ['\''])

theorem splitPipes_quoted (text buf rest : List Char) :
    splitPipes true false buf (text.flatMap quoteChar ++ rest) =
      splitPipes true false (buf ++ text.flatMap quoteChar) rest := by
  induction text generalizing buf with
  | nil => simp
  | cons char later ih =>
    by_cases single : char = '\''
    · subst single
      simp [quoteChar, splitPipes, ih]
    · simp [quoteChar, splitPipes, single, ih]

theorem splitPipes_quote (text buf rest : List Char) :
    splitPipes false false buf (quote text ++ rest) =
      splitPipes false false (buf ++ quote text) rest := by
  simp [quote, splitPipes, splitPipes_quoted]

theorem shellWords_quoted (text token rest : List Char) :
    shellWords (.quoted '\'') token true (text.flatMap quoteChar ++ rest) =
      shellWords (.quoted '\'') (token ++ text) true rest := by
  induction text generalizing token with
  | nil => simp
  | cons char later ih =>
    by_cases single : char = '\''
    · subst single
      simp [quoteChar, shellWords, shellSpace, isQuote, ih]
    · simp [quoteChar, shellWords, single, ih]

theorem shellWords_quote (text : List Char) :
    shellWords .blank [] false (quote text) = some [text] := by
  have opened : ∀ rest, shellWords (.quoted '\'') [] false rest =
      shellWords (.quoted '\'') [] true rest := by
    intro rest
    cases rest <;> rfl
  simp [quote, shellWords, shellSpace, isQuote, opened, shellWords_quoted, emit]

/-- The command `stat` with one argument in quotes. -/
def statCommand (text : List Char) : List Char := "stat".toList ++ ' ' :: quote text

theorem strip_statCommand (text : List Char) : Text.strip (statCommand text) = statCommand text := by
  have shape : statCommand text =
      's' :: (("tat '".toList ++ text.flatMap quoteChar) ++ ['\'']) := by
    simp [statCommand, quote]
  rw [shape]
  exact Text.strip_of_ends (by decide) (by decide)

theorem not_blank_statCommand (text : List Char) : Text.blank (statCommand text) = false := by
  rfl

theorem tokenize_statCommand (text : List Char) :
    tokenize (statCommand text) = ["stat", String.ofList text] := by
  have read : shellWords .blank [] false (statCommand text) =
      (shellWords .blank [] false (quote text)).map (emit "stat".toList false) := by
    simp [statCommand, shellWords, shellSpace, isQuote]
  rw [tokenize, read, shellWords_quote]
  simp [emit]

theorem parse_statCommand (text : List Char) :
    parse_pipeline (String.ofList (statCommand text)) = [["stat", String.ofList text]] := by
  have whole : splitPipes false false [] (statCommand text) = [statCommand text] := by
    have before := splitPipes_quote text "stat ".toList []
    simpa [statCommand, splitPipes] using before
  rw [parse_pipeline, String.toList_ofList, whole]
  simp [strip_statCommand, tokenize_statCommand]

end OpenWebui.KnowledgeFs

namespace OpenWebui.KnowledgeFs

open AccessGrants (User Document)
open Knowledge (Tables FileModel DirectoryModel PlacedFile)

/-- A row of the table of knowledge bases, without its id. -/
structure KnowledgeRow where
  user_id : String
  name : String
  description : Option String
  updated_at : Int
deriving DecidableEq

structure Library where
  grants : AccessGrants.Database
  knowledge : Dict String KnowledgeRow
  tables : Tables

structure AttachedItem where
  type : Option String
  id : Option String

abbrev KnowledgeBase := String × String × String

structure FileInfo where
  id : String
  filename : String
  directory_id : Option String
  size : Json
  type : Json
  updated_at : Option Int
  knowledge_id : Option String
  knowledge_name : Option String

section Access

variable (platform : Platform) (library : Library) (user : User)
  (model_knowledge : List AttachedItem)

def user_group_ids : List String :=
  (AccessGrants.get_groups_by_member_id library.grants user.id).map (fun group => group.id)

def has_access (kb_id : String) (kb : KnowledgeRow) : Bool :=
  decide (user.role = "admin") || decide (kb.user_id = user.id) ||
    AccessGrants.has_access library.grants user.id "knowledge" kb_id "read"
      (some (user_group_ids library user))

def document (kb : String × KnowledgeRow) : Document := ⟨kb.1, some kb.2.user_id⟩

def later (first second : String × KnowledgeRow) : Bool :=
  decide (second.2.updated_at < first.2.updated_at ∨
    (second.2.updated_at = first.2.updated_at ∧ first.1 ≤ second.1))

def search_knowledge_bases : List (String × KnowledgeRow) :=
  let readable := AccessGrants.has_permission_filter library.grants
    (library.knowledge.entries.map document) (some user.id) (user_group_ids library user)
    "knowledge" "read"
  ((library.knowledge.entries.filter (fun kb => decide (document kb ∈ readable))).mergeSort
    later).take 50

def knowledgeBase (kb : String × KnowledgeRow) : KnowledgeBase :=
  (kb.1, kb.2.name, kb.2.description.getD "")

def readable (kb_ids : List String) : List KnowledgeBase :=
  kb_ids.filterMap (fun kb_id => (library.knowledge.get? kb_id).bind (fun kb =>
    if has_access library user kb_id kb then some (knowledgeBase (kb_id, kb)) else none))

def attachedIds (type : String) : List String :=
  model_knowledge.filterMap (fun item => if item.type = some type then item.id else none)

def get_accessible_kb_ids (knowledge_id : Option String) : List KnowledgeBase :=
  let scope := knowledge_id.filter (fun id => decide (id ≠ ""))
  if model_knowledge ≠ [] then
    let attached_kb_ids := attachedIds model_knowledge "collection"
    match scope with
    | some id => if id ∈ attached_kb_ids then readable library user [id] else []
    | none => readable library user (platform.setOrder attached_kb_ids)
  else
    match scope with
    | some id => readable library user [id]
    | none => (search_knowledge_bases library user).map knowledgeBase

def metaField (file : Knowledge.FileModel) (key : String) : Json :=
  (file.file_meta.map (fun fields => getField fields key)).getD .null

def fileInfo (file_id : String) (file : Knowledge.FileModel) (directory_id : Option String)
    (kb : Option KnowledgeBase) : FileInfo where
  id := file_id
  filename := file.filename
  directory_id := directory_id
  size := metaField file "size"
  type := metaField file "content_type"
  updated_at := file.updated_at
  knowledge_id := kb.map (fun kb => kb.1)
  knowledge_name := kb.map (fun kb => kb.2.1)

def filesOf (kb : KnowledgeBase) : List FileInfo :=
  (Knowledge.get_files_with_directory_ids library.tables kb.1).map (fun placed =>
    fileInfo placed.1.1 placed.1.2 placed.2 (some kb))

def attachedFiles : List FileInfo :=
  (platform.setOrder (attachedIds model_knowledge "file")).filterMap (fun fid =>
    (library.tables.file.get? fid).map (fun file => fileInfo fid file none none))

def get_accessible_files (knowledge_id : Option String) : List FileInfo :=
  (get_accessible_kb_ids platform library user model_knowledge knowledge_id).flatMap
      (filesOf library) ++
    attachedFiles platform library model_knowledge

end Access

/-- Two states that are the same as far as the user and the model may read. -/
structure Agree (platform : Platform) (user : User) (model_knowledge : List AttachedItem)
    (first second : Library) : Prop where
  bases : get_accessible_kb_ids platform first user model_knowledge none =
    get_accessible_kb_ids platform second user model_knowledge none
  directories : ∀ kb ∈ get_accessible_kb_ids platform first user model_knowledge none,
    first.tables.knowledge_directory.entries.filter (fun row =>
        decide (row.2.knowledge_id = kb.1)) =
      second.tables.knowledge_directory.entries.filter (fun row =>
        decide (row.2.knowledge_id = kb.1))
  links : ∀ kb ∈ get_accessible_kb_ids platform first user model_knowledge none,
    first.tables.knowledge_file.entries.filter (fun row => decide (row.1.1 = kb.1)) =
      second.tables.knowledge_file.entries.filter (fun row => decide (row.1.1 = kb.1))
  files : ∀ kb ∈ get_accessible_kb_ids platform first user model_knowledge none, ∀ file_id,
    (kb.1, file_id) ∈ first.tables.knowledge_file.keys →
      first.tables.file.get? file_id = second.tables.file.get? file_id
  attached : ∀ file_id ∈ attachedIds model_knowledge "file",
    first.tables.file.get? file_id = second.tables.file.get? file_id

def stripChar (char : Char) (text : String) : String :=
  String.ofList ((text.toList.dropWhile (fun other => decide (other = char))).reverse.dropWhile
    (fun other => decide (other = char))).reverse

def rsplitSlash (path : String) : Option (String × String) :=
  if path.toList.contains '/' then
    let filename := (path.toList.reverse.takeWhile (fun char => decide (char ≠ '/'))).reverse
    some (String.ofList (path.toList.take (path.toList.length - filename.length - 1)),
      String.ofList filename)
  else none

/-- A file that a reference names; one that is named by its id has no knowledge base. -/
structure ResolvedFile where
  id : String
  row : FileModel
  content : Json
  knowledge_id : Option String
  knowledge_name : Option String

/-- The file that a reference names, or why it is not known which. -/
inductive Resolved where
  | file (found : ResolvedFile)
  | error (message : String)

section Directories

/-- The directory tree of a knowledge base, with the path of every directory. -/
structure DirectoryTree where
  dirs : List DirectoryModel
  files : List PlacedFile
  dir_id_to_path : Dict String String
  path_to_dir_id : Dict String String

def parentOf (dirs : List DirectoryModel) (d : Knowledge.KnowledgeDirectory) : Option String :=
  d.parent_id.filter (fun parent_id => decide (parent_id ≠ "" ∧ parent_id ∈ dirs.map Prod.fst))

def getDirPath (dirs : List DirectoryModel) :
    Nat → Dict String String → String → Option (String × Dict String String)
  | 0, _, _ => none
  | fuel + 1, dir_id_to_path, dir_id =>
    match dir_id_to_path.get? dir_id with
    | some path => some (path, dir_id_to_path)
    | none =>
      match dirs.lookup dir_id with
      | none => some ("", dir_id_to_path)
      | some d =>
        match parentOf dirs d with
        | some parent_id =>
          (getDirPath dirs fuel dir_id_to_path parent_id).map (fun above =>
            let path := if above.1 ≠ "" then above.1 ++ "/" ++ d.name else d.name
            (path, above.2.set dir_id path))
        | none => some (d.name, dir_id_to_path.set dir_id d.name)

def recursionError : String := "maximum recursion depth exceeded"

def build_directory_tree (tables : Tables) (knowledge_id : String) : Except String DirectoryTree :=
  let dirs := Knowledge.get_all_directories tables knowledge_id
  match dirs.foldlM (fun dir_id_to_path d =>
      (getDirPath dirs (dirs.length + 1) dir_id_to_path d.1).map Prod.snd) Dict.empty with
  | some dir_id_to_path =>
    .ok ⟨dirs, Knowledge.get_files_with_directory_ids tables knowledge_id, dir_id_to_path,
      dir_id_to_path.entries.foldl (fun path_to_dir_id entry =>
        path_to_dir_id.set entry.2 entry.1) Dict.empty⟩
  | none => .error recursionError

def DirectoryTree.filePath (tree : DirectoryTree) (placed : PlacedFile) : String :=
  match placed.2.bind (fun directory_id =>
      if directory_id ≠ "" then tree.dir_id_to_path.get? directory_id else none) with
  | some path => path ++ "/" ++ placed.1.2.filename
  | none => placed.1.2.filename

def resolve_path (path : String) (tree : DirectoryTree) : Option String :=
  tree.path_to_dir_id.get? (stripChar '/' path)

def get_files_under_dir (tree : DirectoryTree) (dir_id : String) : List PlacedFile :=
  let target_ids := Reach.passes (tree.dirs.map (fun d => (d.1, d.2.parent_id)))
    (tree.dirs.length + 1) [dir_id]
  tree.files.filter (fun placed => placed.2.any (fun id => decide (id ∈ target_ids)))

def descend (tables : Tables) (knowledge_id : String) : Nat → List String → List String → List String
  | 0, result, _ => result
  | fuel + 1, result, queue =>
    match queue.getLast? with
    | none => result
    | some parent =>
      let children := ((Knowledge.get_directories tables knowledge_id (some parent)).map
        Prod.fst).filter (fun child => decide (child ∉ result))
      descend tables knowledge_id fuel (result ++ children) (queue.dropLast ++ children)

def get_descendant_dir_ids (tables : Tables) (dir_id knowledge_id : String) : List String :=
  descend tables knowledge_id ((Knowledge.get_all_directories tables knowledge_id).length + 2)
    [dir_id] [dir_id]

end Directories

section Resolve

variable (platform : Platform) (library : Library) (user : User)
  (model_knowledge : List AttachedItem)

def extracted (file_id : String) : Option (FileModel × Json) :=
  (library.tables.file.get? file_id).bind (fun file =>
    (file.data.filter (fun data => !data.isEmpty)).map (fun data =>
      (file, getFieldD data "content" (.str ""))))

def kbIdsOf (accessible : List FileInfo) : List String :=
  platform.setOrder ((accessible.filterMap (fun fi => fi.knowledge_id)).filter (fun id =>
    decide (id ≠ "")))

def single (matched : List FileInfo) : Option Resolved :=
  match matched with
  | [fi] => (extracted library fi.id).map (fun found =>
      .file ⟨fi.id, found.1, found.2, fi.knowledge_id, fi.knowledge_name⟩)
  | _ => none

def findByPath (ref : String) (accessible : List FileInfo) : Option Resolved :=
  (rsplitSlash (stripChar '/' ref)).bind (fun split =>
    (kbIdsOf platform accessible).findSome? (fun kb_id =>
      (Knowledge.resolve_dir_path library.tables split.1 kb_id).bind (fun dir_id =>
        single library (accessible.filter (fun fi =>
          decide (fi.filename = split.2 ∧ fi.directory_id = some dir_id))))))

def ambiguous (ref : String) (matched : List FileInfo) : String :=
  "Ambiguous filename \"" ++ ref ++ "\". Use full path to disambiguate:\n" ++
    "\n".intercalate (matched.map (fun m => "  " ++ m.id ++ "  " ++ m.filename ++ "  (" ++
      m.knowledge_name.getD "None" ++ ")"))

def findByName (ref : String) (accessible : List FileInfo) : Option Resolved :=
  let matched := accessible.filter (fun fi => decide (fi.filename = ref))
  if 1 < matched.length then some (.error (ambiguous ref matched)) else single library matched

def findAccessible (ref : String) (accessible : List FileInfo) : Option Resolved :=
  (findByPath platform library ref accessible).or (findByName library ref accessible)

def resolve_file (ref : String) : Option Resolved :=
  let accessible := get_accessible_files platform library user model_knowledge none
  match extracted library ref with
  | some (file, content) =>
    if ref ∈ accessible.map (fun fi => fi.id) then some (.file ⟨ref, file, content, none, none⟩)
    else none
  | none => findAccessible platform library ref accessible

end Resolve

end OpenWebui.KnowledgeFs
