import OpenWebui.KnowledgeFs.Resolve

/-! The commands over knowledge bases, and pipelines of them. -/

namespace OpenWebui.KnowledgeFs

open AccessGrants (User)

/-- `'\n'.join(lines)`. -/
def unlines (lines : List String) : String := "\n".intercalate lines

/-- `text.split('\n')`. -/
def splitLines (text : String) : List String := (Text.split '\n' text.toList).map String.ofList

def numbered (lines : List String) : List (Nat × String) :=
  lines.zipIdx.map (fun entry => (entry.2 + 1, entry.1))

/-- `text.rstrip()`. -/
def rstrip (text : String) : String := String.ofList (Text.rstrip text.toList)

section Texts

variable (platform : Platform)

def number (value : Nat) : Json := .num value

def contentText : Json → Except String String
  | .str content => .ok content
  | _ => .error "the content is not a text"

def fmt_size (size : Json) : Except String String :=
  if size.truthy then (platform.commas size).map (fun text => text ++ " bytes") else .ok ""

def fmt_date (updated_at : Option Int) : Except String String :=
  match updated_at.filter (fun time => decide (time ≠ 0)) with
  | some time => platform.strftime "%Y-%m-%d" time
  | none => .ok ""

def listed (id name : String) (size : Json) (updated_at : Option Int) : Except String String := do
  let size ← fmt_size platform size
  let date ← fmt_date platform updated_at
  pure ("  " ++ id ++ "  " ++ name ++ "  " ++ size ++ "  " ++ date)

def lineCount (content : String) : Nat :=
  content.toList.count '\n' +
    if content ≠ "" ∧ content.toList.getLast? ≠ some '\n' then 1 else 0

def wordCount (content : String) : Nat := (words content.toList).length

def charCount (content : String) : Nat := content.toList.length

def lastLines (n : Nat) (lines : List String) : List String :=
  if n = 0 then lines else lines.drop (lines.length - n)

end Texts

section Commands

variable (platform : Platform) (limits : Limits) (library : Library) (user : User)
  (model_knowledge : List AttachedItem)

def header (kb : KnowledgeBase) : String :=
  "Knowledge Base: " ++ kb.2.1 ++ " (" ++ kb.1 ++ ")" ++
    if kb.2.2 ≠ "" then "\n  " ++ kb.2.2 else ""

def directFiles : List FileInfo :=
  if model_knowledge ≠ [] then
    (get_accessible_files platform library user model_knowledge none).filter (fun f =>
      (f.knowledge_id.filter (fun id => decide (id ≠ ""))).isNone)
  else []

def lsFlat (kb : KnowledgeBase) : Except String (List String) := do
  let tree ← build_directory_tree library.tables kb.1
  let lines ← tree.files.mapM (fun f =>
    listed platform f.1.1 (tree.filePath f) (metaField f.1.2 "size") f.1.2.updated_at)
  pure (header kb :: lines ++ [""])

def lsDirectory (kb : KnowledgeBase) (path : List String) (target_dir_id : Option String) :
    Except String (List String) := do
  let subdirs := Knowledge.get_directories library.tables kb.1 target_dir_id
  let accessible := get_accessible_files platform library user model_knowledge (some kb.1)
  let dir_files := accessible.filter (fun f => decide (f.directory_id = target_dir_id))
  let lines ← dir_files.mapM (fun f => listed platform f.id f.filename f.size f.updated_at)
  pure (header kb :: path ++ subdirs.map (fun d => "  📁 " ++ d.2.name ++ "/") ++ lines ++
    (if subdirs.isEmpty && dir_files.isEmpty then ["  (empty)"] else []) ++ [""])

def lsBase (flags : List Char) (dir_path : Option String) (kb : KnowledgeBase) :
    Except String (List String) :=
  if 'a' ∈ flags then lsFlat platform library kb
  else
    match dir_path.filter (fun path => decide (path ≠ "")) with
    | some dir_path =>
      match Knowledge.resolve_dir_path library.tables dir_path kb.1 with
      | some target_dir_id => lsDirectory platform library user model_knowledge kb
          ["  Path: " ++ dir_path ++ "/"] (some target_dir_id)
      | none => .ok [header kb, "  Directory not found: " ++ dir_path, ""]
    | none => lsDirectory platform library user model_knowledge kb [] none

def kb_ls (args : List String) (flags : List Char) : Except String String := do
  let kb_ids := get_accessible_kb_ids platform library user model_knowledge none
  let direct_files := directFiles platform library user model_knowledge
  let path_arg := args.head?.filter (fun arg => decide (arg ≠ ""))
  let target := path_arg.filter (fun arg => kb_ids.any (fun kb => decide (kb.1 = arg)))
  let dir_path := if target.isNone then path_arg.map (stripChar '/') else none
  let kb_ids := kb_ids.filter (fun kb => target.all (fun id => decide (kb.1 = id)))
  if kb_ids.isEmpty && direct_files.isEmpty then pure "No knowledge bases found."
  else
    let lines ← kb_ids.mapM (lsBase platform library user model_knowledge flags dir_path)
    let shown := target.isNone && (dir_path.filter (fun path => decide (path ≠ ""))).isNone
    let attached ← (if shown then direct_files else []).mapM (fun f =>
      listed platform f.id f.filename f.size f.updated_at)
    pure (rstrip (unlines (lines.flatten ++
      if attached.isEmpty then [] else "Attached Files:" :: attached ++ [""])))

def withFile (ref : String) (use : ResolvedFile → Except String String) : Except String String :=
  match resolve_file platform library user model_knowledge ref with
  | none => .ok ("File not found: " ++ ref)
  | some (.error message) => .ok message
  | some (.file found) => use found

def withContent (usage : String) (args : List String)
    (use : ResolvedFile → String → Except String String) : Except String String :=
  match args with
  | [] => .ok usage
  | ref :: _ => withFile platform library user model_knowledge ref (fun found => do
      let content ← contentText found.content
      use found content)

def kb_cat (args : List String) (flags : List Char) : Except String String :=
  withContent platform library user model_knowledge "Usage: cat [-n] <file_id or filename>" args
    (fun _ content => pure (
      if 'n' ∈ flags then
        unlines ((numbered (splitLines content)).map (fun line =>
          toString line.1 ++ ": " ++ line.2))
      else content))

def kb_head (args : List String) (piped_input : Option String) : Except String String :=
  let (num, args) := extract_numeric_flag platform args
  let n := num.getD 10
  match piped_input with
  | some text => .ok (unlines ((splitLines text).take n))
  | none => withContent platform library user model_knowledge "Usage: head [-N] <file>" args
      (fun _ content =>
        let lines := splitLines content
        let shown := unlines (lines.take n)
        pure (if n < lines.length then
          shown ++ "\n[showing " ++ toString n ++ " of " ++ toString lines.length ++ " lines]"
        else shown))

def kb_tail (args : List String) (piped_input : Option String) : Except String String :=
  let (num, args) := extract_numeric_flag platform args
  let n := num.getD 10
  match piped_input with
  | some text => .ok (unlines (lastLines n (splitLines text)))
  | none => withContent platform library user model_knowledge "Usage: tail [-N] <file>" args
      (fun _ content =>
        let lines := splitLines content
        let shown := unlines (lastLines n lines)
        pure (if n < lines.length then
          shown ++ "\n[showing last " ++ toString n ++ " of " ++ toString lines.length ++ " lines]"
        else shown))

def scopeDirs (dir_scope : String) (accessible : List FileInfo) : List String :=
  (kbIdsOf platform accessible).flatMap (fun kb_id =>
    match (Knowledge.resolve_dir_path library.tables dir_scope kb_id).filter (fun id =>
        decide (id ≠ "")) with
    | some dir_id => get_descendant_dir_ids library.tables dir_id kb_id
    | none => [])

def within (target_dir_ids : List String) (accessible : List FileInfo) : List FileInfo :=
  accessible.filter (fun f => f.directory_id.any (fun id => decide (id ∈ target_dir_ids)))

end Commands

section Grep

def matchedLines (matches_line : String → Exec Bool) :
    List (Nat × String) → Exec (List (Nat × String))
  | [] => pure []
  | line :: rest => do
    let found ← matches_line line.2
    let others ← matchedLines matches_line rest
    pure (if found then line :: others else others)

def showLine (line : Nat × String) : String := toString line.1 ++ ": " ++ line.2

def noMatches (pattern : String) : String := "No matches for \"" ++ pattern ++ "\""

def showFile (id filename : String) : String := id ++ "  " ++ filename

def grepInput (pattern : String) (count_only filenames_only : Bool)
    (matches_line : String → Exec Bool) (text : String) : Exec String := do
  let matched ← matchedLines matches_line (numbered (splitLines text))
  pure (if count_only then toString matched.length
    else if filenames_only then
      if matched.isEmpty then noMatches pattern else "(standard input)"
    else if matched.isEmpty then noMatches pattern else unlines (matched.map showLine))

def grepFile (pattern : String) (count_only filenames_only : Bool)
    (matches_line : String → Exec Bool) (found : ResolvedFile) : Exec String := do
  let content ← (contentText found.content : Except String String)
  let matched ← matchedLines matches_line (numbered (splitLines content))
  pure (if count_only then
      showFile found.id found.row.filename ++ ": " ++ toString matched.length
    else if filenames_only then
      if matched.isEmpty then noMatches pattern else showFile found.id found.row.filename
    else if matched.isEmpty then noMatches pattern ++ " in " ++ found.row.filename
    else unlines (matched.map showLine))

def grepFiles (library : Library) (matches_line : String → Exec Bool) :
    List FileInfo → Exec (List (FileInfo × List (Nat × String)))
  | [] => pure []
  | file_info :: rest =>
    match (extracted library file_info.id).filter (fun found => found.2.truthy) with
    | none => grepFiles library matches_line rest
    | some found => do
      let content ← (contentText found.2 : Except String String)
      let file_matches ← matchedLines matches_line (numbered (splitLines content))
      let others ← grepFiles library matches_line rest
      pure (if file_matches.isEmpty then others else (file_info, file_matches) :: others)

/-- The arguments after the pattern: a file, a directory and an extension, the last of each. -/
structure GrepArgs where
  file_ref : Option String
  dir_scope : Option String
  ext_filter : Option String

def readGrepArg (read : GrepArgs) (arg : String) : GrepArgs :=
  if arg.toList.contains '*' || arg.toList.head? == some '.' then
    { read with ext_filter := some (String.ofList ((arg.toList.dropWhile (fun char =>
        decide (char = '*'))).dropWhile (fun char => decide (char = '.')))) }
  else if arg.toList.getLast? == some '/' then
    { read with dir_scope := some (stripChar '/' arg) }
  else { read with file_ref := some arg }

def readGrepArgs (args : List String) : GrepArgs := args.foldl readGrepArg ⟨none, none, none⟩

def filled (text : Option String) : Option String := text.filter (fun text => decide (text ≠ ""))

def showMatches (limits : Limits) (pattern : String) (count_only filenames_only : Bool)
    (searched : Nat) (matched : List (FileInfo × List (Nat × String))) : String :=
  let total_matches := (matched.flatMap (fun entry => entry.2)).length
  if count_only then
    if matched.isEmpty then noMatches pattern
    else unlines (matched.map (fun entry =>
        showFile entry.1.id entry.1.filename ++ ": " ++ toString entry.2.length) ++
      ["Total: " ++ toString total_matches ++ " matches in " ++ toString matched.length ++ " files"])
  else if filenames_only then
    if matched.isEmpty then noMatches pattern
    else unlines (matched.map (fun entry => showFile entry.1.id entry.1.filename))
  else
    let results := (matched.flatMap (fun entry => entry.2.map (fun line =>
      showFile entry.1.id entry.1.filename ++ ":" ++ toString line.1 ++ ": " ++
        rstrip line.2))).take limits.knowledge_grep_max_matches
    if results.isEmpty then noMatches pattern ++ " across " ++ toString searched ++ " files"
    else unlines results ++
      if limits.knowledge_grep_max_matches < total_matches then
        "\n[showing " ++ toString limits.knowledge_grep_max_matches ++ " of " ++
          toString total_matches ++ " matches]"
      else ""

variable (platform : Platform) (limits : Limits) (library : Library) (user : User)
  (model_knowledge : List AttachedItem)

def grepAccessible (pattern : String) (count_only filenames_only : Bool)
    (matches_line : String → Exec Bool) (dir_scope ext_filter : Option String) : Exec String :=
  let all := get_accessible_files platform library user model_knowledge none
  let below := match filled dir_scope with
    | some dir_scope => within (scopeDirs platform library dir_scope all) all
    | none => all
  match (filled dir_scope).filter (fun _ => below.isEmpty) with
  | some dir_scope => pure ("No files found under \"" ++ dir_scope ++ "/\"")
  | none =>
    let accessible := match filled ext_filter with
      | some ext => below.filter (fun f => ("." ++ ext).toList.isSuffixOf f.filename.toList)
      | none => below
    if limits.kb_exec_max_grep_files < accessible.length then
      pure ("Too many files (" ++ toString accessible.length ++ "). Scope your search: grep \"" ++
        pattern ++ "\" docs/ or grep \"" ++ pattern ++ "\" *.py")
    else do
      let matched ← grepFiles library matches_line accessible
      pure (showMatches limits pattern count_only filenames_only accessible.length matched)

def kb_grep (args : List String) (flags : List Char) (piped_input : Option String) :
    Exec String :=
  match args with
  | [] => pure "Usage: grep [-E] [-i] [-l] [-c] \"pattern\" [file] [*.ext]"
  | pattern :: rest =>
    let read := readGrepArgs rest
    let count_only := decide ('c' ∈ flags)
    let filenames_only := decide ('l' ∈ flags)
    match build_matcher platform pattern (decide ('i' ∈ flags)) (decide ('E' ∈ flags)) with
    | .error err => pure err
    | .ok matches_line =>
      match piped_input with
      | some text => grepInput pattern count_only filenames_only matches_line text
      | none =>
        match (filled read.file_ref).filter (fun _ => (filled read.dir_scope).isNone) with
        | none => grepAccessible platform limits library user model_knowledge pattern count_only
            filenames_only matches_line read.dir_scope read.ext_filter
        | some file_ref =>
          match resolve_file platform library user model_knowledge file_ref with
          -- it may be a directory without the slash at its end
          | none => grepAccessible platform limits library user model_knowledge pattern count_only
              filenames_only matches_line (some file_ref) read.ext_filter
          | some (.error message) => pure message
          | some (.file found) => grepFile pattern count_only filenames_only matches_line found

end Grep

section More

variable (platform : Platform) (limits : Limits) (library : Library) (user : User)
  (model_knowledge : List AttachedItem)

def kb_find (args : List String) : String :=
  let contains (char : Char) (arg : String) := arg.toList.contains char
  match args with
  | [] => "Usage: find \"*.md\" or find docs/ \"*.md\""
  | first :: rest =>
    let scope := rest.head?.filter (fun _ =>
      contains '/' first || !(contains '*' first || contains '?' first))
    let dir_scope := filled (scope.map (fun _ => stripChar '/' first))
    let pattern := scope.getD first
    let all := get_accessible_files platform library user model_knowledge none
    let accessible := match dir_scope with
      | some dir_scope => within (scopeDirs platform library dir_scope all) all
      | none => all
    let matched := accessible.filter (fun f => platform.fnmatch f.filename pattern)
    if matched.isEmpty then
      "No files matching \"" ++ pattern ++ "\"" ++
        (dir_scope.map (fun dir_scope => " under \"" ++ dir_scope ++ "/\"")).getD ""
    else unlines (matched.map (fun f => showFile f.id f.filename ++
      ((filled f.knowledge_name).map (fun name => " (" ++ name ++ ")")).getD ""))

def showCounts (content : String) : String :=
  "  " ++ toString (lineCount content) ++ "  " ++ toString (wordCount content) ++ "  " ++
    toString (charCount content)

def kb_wc (args : List String) (flags : List Char) (piped_input : Option String) :
    Except String String :=
  match piped_input with
  | some text => .ok (if 'l' ∈ flags then toString (lineCount text) else showCounts text)
  | none => withContent platform library user model_knowledge "Usage: wc [-l] <file>" args
      (fun found content => pure (
        if 'l' ∈ flags then "  " ++ toString (lineCount content) ++ "  " ++ found.row.filename
        else showCounts content ++ "  " ++ found.row.filename))

def statTime (label : String) (time : Option Int) : Except String (List String) :=
  match time.filter (fun time => decide (time ≠ 0)) with
  | some time => (platform.strftime "%Y-%m-%d %H:%M:%S UTC" time).map (fun text => [label ++ text])
  | none => .ok []

def shownText : Json → String
  | .str text => text
  | value => platform.str value

def statText (found : ResolvedFile) (content : String) : Except String String := do
  let file_meta := found.row.file_meta.getD []
  let size ← platform.commas (getFieldD file_meta "size" (number (charCount content)))
  let lines ← platform.commas (number (lineCount content))
  let words ← platform.commas (number (wordCount content))
  let chars ← platform.commas (number (charCount content))
  let created ← statTime platform "  Created: " found.row.created_at
  let updated ← statTime platform "  Updated: " found.row.updated_at
  let kb := ((filled found.knowledge_name).map (fun name =>
    ["      KB: " ++ name ++ " (" ++ found.knowledge_id.getD "None" ++ ")"])).getD []
  pure (unlines (["  File: " ++ found.row.filename,
    "    ID: " ++ found.id,
    "  Size: " ++ size ++ " bytes",
    "  Type: " ++ shownText platform (getFieldD file_meta "content_type" (.str "unknown")),
    " Lines: " ++ lines,
    " Words: " ++ words,
    " Chars: " ++ chars] ++ created ++ updated ++ kb))

def kb_stat (args : List String) : Except String String :=
  withContent platform library user model_knowledge "Usage: stat <file>" args (statText platform)

def lineSlice (start last : Nat) (lines : List String) : List String :=
  (lines.take last).drop (start - 1)

def kb_sed (args : List String) (flags : List Char) (piped_input : Option String) :
    Except String String :=
  match piped_input with
  | some text =>
    let lines := splitLines text
    let range := if 'n' ∈ flags then args.head?.bind (lineRange platform false) else none
    let last := (range.map Prod.snd).getD 0
    .ok (unlines (lineSlice ((range.map Prod.fst).getD 1)
      (if last = 0 then lines.length else last) lines))
  | none =>
    let range := (args.filterMap (lineRange platform true)).getLast?
    let file_ref := filled (args.filter (fun arg => (lineRange platform true arg).isNone)).getLast?
    match range, file_ref with
    | some (start, last), some file_ref =>
      if last < start then
        .ok ("Invalid range: start (" ++ toString start ++ ") > end (" ++ toString last ++ ")")
      else withFile platform library user model_knowledge file_ref (fun found => do
        let content ← contentText found.content
        let lines := splitLines content
        pure (unlines (lineSlice start last lines) ++ "\n[lines " ++ toString start ++ "-" ++
          toString (min last lines.length) ++ " of " ++ toString lines.length ++ "]"))
    | _, _ => .ok "Usage: sed -n '40,60p' <file>"

def treeBase (dir_scope : Option String) (kb : KnowledgeBase) : Except String (List String) := do
  let tree ← build_directory_tree library.tables kb.1
  let render := fun root => (Knowledge.renderTree tree.dirs tree.files (tree.dirs.length + 1) root
    "  ").map Knowledge.TreeLine.text
  let summary := ["\n  " ++ toString tree.dirs.length ++ " directories, " ++
    toString tree.files.length ++ " files", ""]
  pure (match filled dir_scope with
    | some dir_scope =>
      match resolve_path dir_scope tree with
      | some root_dir_id =>
        header kb :: ("  " ++ dir_scope ++ "/") :: render (some root_dir_id) ++ summary
      | none => [header kb, "  Directory not found: " ++ dir_scope, ""]
    | none => header kb :: render none ++ summary)

def kb_tree (args : List String) : Except String String := do
  let kb_ids := get_accessible_kb_ids platform library user model_knowledge none
  let direct_files := directFiles platform library user model_knowledge
  let dir_scope := args.head?.map (stripChar '/')
  if kb_ids.isEmpty && direct_files.isEmpty then pure "No knowledge bases found."
  else
    let output ← kb_ids.mapM (treeBase library dir_scope)
    let attached := if direct_files.isEmpty || (filled dir_scope).isSome then [] else
      "Attached Files:" :: direct_files.zipIdx.map (fun entry => "  " ++
        Knowledge.connector (decide (entry.2 + 1 = direct_files.length)) ++ entry.1.filename) ++
        ["\n  0 directories, " ++ toString direct_files.length ++ " files", ""]
    pure (rstrip (unlines (output.flatten ++ attached)))

def runCommand (cmd_name : String) (args : List String) (flags : List Char)
    (piped_input : Option String) : Option (Exec String) :=
  match cmd_name with
  | "ls" => some (kb_ls platform library user model_knowledge args flags)
  | "cat" => some (kb_cat platform library user model_knowledge args flags)
  | "head" => some (kb_head platform library user model_knowledge args piped_input)
  | "tail" => some (kb_tail platform library user model_knowledge args piped_input)
  | "grep" => some (kb_grep platform limits library user model_knowledge args flags piped_input)
  | "find" => some (pure (kb_find platform library user model_knowledge args))
  | "wc" => some (kb_wc platform library user model_knowledge args flags piped_input)
  | "stat" => some (kb_stat platform library user model_knowledge args)
  | "sed" => some (kb_sed platform library user model_knowledge args flags piped_input)
  | "tree" => some (kb_tree platform library user model_knowledge args)
  | _ => none

def execute_pipeline : List (List String) → Option String → Exec String
  | [], piped_input => pure (piped_input.getD "")
  | [] :: _, _ => throw "list index out of range"
  | (command :: rest) :: segments, piped_input =>
    let cmd_name := platform.lower command
    let (flags, args) := extract_flags platform rest
    match runCommand platform limits library user model_knowledge cmd_name args flags
        piped_input with
    | none => pure ("Unknown command: " ++ cmd_name ++
        ". Available: cat, find, grep, head, ls, sed, stat, tail, tree, wc")
    | some run => do
      let output ← run
      execute_pipeline segments (some output)

def truncate (output : String) : Except String String :=
  if limits.kb_exec_max_output_chars < charCount output then
    (platform.commas (number limits.kb_exec_max_output_chars)).map (fun limit =>
      String.ofList (output.toList.take limits.kb_exec_max_output_chars) ++
        "\n[output truncated at " ++ limit ++ " chars — narrow the command with a path, glob, " ++
          "head/tail/sed or grep]")
  else .ok output

def kb_exec (command : String) : String :=
  if Text.blank command.toList then
    "Usage: kb_exec(\"<command>\"). Run kb_exec(\"ls\") to start."
  else
    let segments := parse_pipeline (String.ofList (Text.strip command.toList))
    if segments.isEmpty then "Could not parse command. Run kb_exec(\"ls\") to start."
    else
      match (execute_pipeline platform limits library user model_knowledge segments none).run
          matchBudget with
      | .error error => "Error: " ++ error
      | .ok (output, _) =>
        match truncate platform limits output with
        | .ok shown => shown
        | .error error => "Error: " ++ error

end More

end OpenWebui.KnowledgeFs
