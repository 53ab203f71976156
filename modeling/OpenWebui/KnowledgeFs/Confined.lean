import Mathlib.Data.List.Dedup
import OpenWebui.KnowledgeFs.Agree
import OpenWebui.KnowledgeFs.Commands
import OpenWebui.KnowledgeFs.Resolve

/-! The output of a command depends on what the user and the model may read, and on the ids of
other files only through the references it resolves. -/

namespace OpenWebui.KnowledgeFs

open AccessGrants (User)

theorem mapM_congr {ε : Type} {α β : Type} {step other : α → Except ε β} {items : List α}
    (same : ∀ item ∈ items, step item = other item) : items.mapM step = items.mapM other := by
  induction items with
  | nil => rfl
  | cons item rest ih =>
    rw [List.mapM_cons, List.mapM_cons, same item (by simp),
      ih (fun later member => same later (by simp [member]))]

section Arguments

variable {platform : Platform}

theorem mem_extract_numeric_flag {tokens : List String} {arg : String}
    (member : arg ∈ (extract_numeric_flag platform tokens).2) : arg ∈ tokens := by
  induction tokens with
  | nil => exact member
  | cons token rest ih =>
    rw [extract_numeric_flag] at member
    split at member
    · exact List.mem_cons_of_mem token member
    · rcases List.mem_cons.mp member with rfl | later
      · exact List.mem_cons_self
      · exact List.mem_cons_of_mem token (ih later)

theorem not_flags_of_extracted {tokens : List String} {arg : String}
    (member : arg ∈ (extract_flags platform tokens).2) : isFlags platform arg = false := by
  have kept := (List.mem_filter.mp member).2
  simpa using kept

theorem mem_of_file_ref {args : List String} {ref : String} {start : GrepArgs}
    (read : (args.foldl readGrepArg start).file_ref = some ref) :
    ref ∈ args ∨ start.file_ref = some ref := by
  induction args generalizing start with
  | nil => exact .inr read
  | cons arg rest ih =>
    rcases ih read with later | here
    · exact .inl (List.mem_cons_of_mem arg later)
    · rw [readGrepArg] at here
      split at here
      · exact .inr here
      · split at here
        · exact .inr here
        · exact .inl (Option.some.inj here ▸ List.mem_cons_self)

end Arguments

section Same

variable {platform : Platform} {limits : Limits} {user : User}
  {model_knowledge : List AttachedItem} {first second : Library}
  (agree : Agree platform user model_knowledge first second)
  (same : ∀ ref, isFlags platform ref = false →
    resolve_file platform first user model_knowledge ref =
      resolve_file platform second user model_knowledge ref)

section Files

variable {args : List String} (plain : ∀ arg ∈ args, isFlags platform arg = false)

include same plain

theorem withContent_same (usage : String) (use : ResolvedFile → String → Except String String) :
    withContent platform first user model_knowledge usage args use =
      withContent platform second user model_knowledge usage args use := by
  cases args with
  | nil => rfl
  | cons ref rest =>
    rw [withContent, withContent, withFile, withFile, same ref (plain ref (by simp))]

theorem kb_head_same (piped_input : Option String) :
    kb_head platform first user model_knowledge args piped_input =
      kb_head platform second user model_knowledge args piped_input := by
  have kept : ∀ arg ∈ (extract_numeric_flag platform args).2, isFlags platform arg = false :=
    fun arg member => plain arg (mem_extract_numeric_flag member)
  simp only [kb_head, withContent_same same kept]

theorem kb_tail_same (piped_input : Option String) :
    kb_tail platform first user model_knowledge args piped_input =
      kb_tail platform second user model_knowledge args piped_input := by
  have kept : ∀ arg ∈ (extract_numeric_flag platform args).2, isFlags platform arg = false :=
    fun arg member => plain arg (mem_extract_numeric_flag member)
  simp only [kb_tail, withContent_same same kept]

theorem kb_sed_same (flags : List Char) (piped_input : Option String) :
    kb_sed platform first user model_knowledge args flags piped_input =
      kb_sed platform second user model_knowledge args flags piped_input := by
  cases piped_input with
  | some text => rfl
  | none =>
    simp only [kb_sed]
    split
    · rename_i start last ref range named
      have inside := List.mem_of_getLast? (Option.filter_eq_some_iff.mp named).1
      have resolved := same ref (plain ref (List.mem_of_mem_filter inside))
      simp only [withFile, resolved]
    · rfl

end Files

include agree

theorem directFiles_same : directFiles platform first user model_knowledge =
    directFiles platform second user model_knowledge := by
  rw [directFiles, directFiles, agree.accessible_files]

theorem lsBase_same {flags : List Char} {dir_path : Option String} {kb : KnowledgeBase}
    (member : kb ∈ get_accessible_kb_ids platform first user model_knowledge none) :
    lsBase platform first user model_knowledge flags dir_path kb =
      lsBase platform second user model_knowledge flags dir_path kb := by
  simp only [lsBase, lsFlat, lsDirectory, agree.build_directory_tree member,
    agree.get_directories member, agree.accessible_files_of member,
    agree.resolve_dir_path member]

theorem kb_ls_same (args : List String) (flags : List Char) :
    kb_ls platform first user model_knowledge args flags =
      kb_ls platform second user model_knowledge args flags := by
  have bases : ∀ (keep : KnowledgeBase → Bool) (dir_path : Option String),
      ((get_accessible_kb_ids platform first user model_knowledge none).filter keep).mapM
          (lsBase platform first user model_knowledge flags dir_path) =
        ((get_accessible_kb_ids platform first user model_knowledge none).filter keep).mapM
          (lsBase platform second user model_knowledge flags dir_path) :=
    fun keep dir_path => mapM_congr (fun kb member =>
      lsBase_same agree (List.mem_of_mem_filter member))
  simp only [kb_ls, ← agree.bases, ← directFiles_same agree, bases]

theorem treeBase_same {dir_scope : Option String} {kb : KnowledgeBase}
    (member : kb ∈ get_accessible_kb_ids platform first user model_knowledge none) :
    treeBase first dir_scope kb = treeBase second dir_scope kb := by
  simp only [treeBase, agree.build_directory_tree member]

theorem kb_tree_same (args : List String) :
    kb_tree platform first user model_knowledge args =
      kb_tree platform second user model_knowledge args := by
  have bases : ∀ dir_scope, (get_accessible_kb_ids platform first user model_knowledge none).mapM
      (treeBase first dir_scope) =
        (get_accessible_kb_ids platform first user model_knowledge none).mapM
          (treeBase second dir_scope) :=
    fun dir_scope => mapM_congr (fun kb member => treeBase_same agree member)
  simp only [kb_tree, ← agree.bases, ← directFiles_same agree, bases]

theorem scopeDirs_same (dir_scope : String) :
    scopeDirs platform first dir_scope
        (get_accessible_files platform first user model_knowledge none) =
      scopeDirs platform second dir_scope
        (get_accessible_files platform first user model_knowledge none) := by
  refine List.flatMap_congr ?_
  intro kb_id member
  obtain ⟨kb, readable, rfl⟩ := mem_kbIdsOf member
  simp only [agree.resolve_dir_path readable, agree.descendants readable]

theorem kb_find_same (args : List String) :
    kb_find platform first user model_knowledge args =
      kb_find platform second user model_knowledge args := by
  simp only [kb_find, ← agree.accessible_files, scopeDirs_same agree]

theorem grepFiles_same (matches_line : String → Exec Bool) {files : List FileInfo}
    (inside : ∀ fi ∈ files, fi ∈ get_accessible_files platform first user model_knowledge none) :
    grepFiles first matches_line files = grepFiles second matches_line files := by
  induction files with
  | nil => rfl
  | cons fi rest ih =>
    have later := ih (fun other member => inside other (by simp [member]))
    simp only [grepFiles, agree.extracted (inside fi (by simp)), later]

theorem grepAccessible_same (pattern : String) (count_only filenames_only : Bool)
    (matches_line : String → Exec Bool) (dir_scope ext_filter : Option String) :
    grepAccessible platform limits first user model_knowledge pattern count_only filenames_only
        matches_line dir_scope ext_filter =
      grepAccessible platform limits second user model_knowledge pattern count_only filenames_only
        matches_line dir_scope ext_filter := by
  have searched : ∀ keep, grepFiles first matches_line
      ((get_accessible_files platform first user model_knowledge none).filter keep) =
        grepFiles second matches_line
          ((get_accessible_files platform first user model_knowledge none).filter keep) :=
    fun keep => grepFiles_same agree matches_line (fun fi member => List.mem_of_mem_filter member)
  have all := grepFiles_same agree matches_line (fun fi member => member)
  simp only [grepAccessible, ← agree.accessible_files, scopeDirs_same agree]
  cases filled dir_scope with
  | none => cases filled ext_filter <;> simp only [searched, all]
  | some dir_scope =>
    cases filled ext_filter with
    | none =>
      simp only [within, searched]
      rfl
    | some ext => simp only [within, List.filter_filter, searched]

include same in
theorem kb_grep_same {args : List String} (plain : ∀ arg ∈ args, isFlags platform arg = false)
    (flags : List Char) (piped_input : Option String) :
    kb_grep platform limits first user model_knowledge args flags piped_input =
      kb_grep platform limits second user model_knowledge args flags piped_input := by
  cases args with
  | nil => rfl
  | cons pattern rest =>
    simp only [kb_grep, grepAccessible_same agree]
    split
    · rfl
    · cases piped_input with
      | some text => rfl
      | none =>
        simp only
        split
        · rfl
        · rename_i ref named
          have read := (Option.filter_eq_some_iff.mp (Option.filter_eq_some_iff.mp named).1).1
          rcases mem_of_file_ref read with member | missing
          · rw [same ref (plain ref (List.mem_cons_of_mem pattern member))]
          · cases missing

include same

theorem runCommand_same (cmd_name : String) {args : List String}
    (plain : ∀ arg ∈ args, isFlags platform arg = false) (flags : List Char)
    (piped_input : Option String) :
    runCommand platform limits first user model_knowledge cmd_name args flags piped_input =
      runCommand platform limits second user model_knowledge cmd_name args flags piped_input := by
  simp only [runCommand, kb_ls_same agree, kb_cat, withContent_same same plain,
    kb_head_same same plain, kb_tail_same same plain, kb_grep_same agree same plain,
    kb_find_same agree, kb_wc, kb_stat, kb_sed_same same plain, kb_tree_same agree]

theorem execute_pipeline_same (segments : List (List String)) (piped_input : Option String) :
    execute_pipeline platform limits first user model_knowledge segments piped_input =
      execute_pipeline platform limits second user model_knowledge segments piped_input := by
  induction segments generalizing piped_input with
  | nil => rfl
  | cons tokens rest ih =>
    cases tokens with
    | nil => rfl
    | cons command arguments =>
      simp only [execute_pipeline, ih, runCommand_same agree same _ (fun arg member =>
        not_flags_of_extracted member)]

theorem kb_exec_same (command : String) :
    kb_exec platform limits first user model_knowledge command =
      kb_exec platform limits second user model_knowledge command := by
  simp only [kb_exec, execute_pipeline_same agree same]

end Same

section Stat

variable {platform : Platform} {limits : Limits} {library : Library} {user : User}
  {model_knowledge : List AttachedItem} {ref : String}

def shownResult (platform : Platform) (limits : Limits) (result : Except String String) : String :=
  match result.bind (truncate platform limits) with
  | .ok shown => shown
  | .error error => "Error: " ++ error

theorem kb_exec_stat (plain : isFlags platform ref = false) :
    kb_exec platform limits library user model_knowledge (String.ofList (statCommand ref.toList)) =
      shownResult platform limits (kb_stat platform library user model_knowledge [ref]) := by
  have lower : platform.lower "stat" = "stat" := platform.lower_ascii "stat" (by simp)
  have extracted : extract_flags platform [ref] = ([], [ref]) := by
    simp [extract_flags, plain]
  have parsed := parse_statCommand ref.toList
  rw [kb_exec, String.toList_ofList, not_blank_statCommand, strip_statCommand, parsed]
  simp only [String.ofList_toList, execute_pipeline, lower, extracted, runCommand]
  cases kb_stat platform library user model_knowledge [ref] with
  | error error => rfl
  | ok output => rfl

theorem head_append {text other : String} {first : Char} (head : text.toList.head? = some first) :
    (text ++ other).toList.head? = some first := by
  rw [String.toList_append, List.head?_append, head]
  rfl

theorem head_unlines {line : String} {rest : List String} {first : Char}
    (head : line.toList.head? = some first) :
    (unlines (line :: rest)).toList.head? = some first := by
  cases rest with
  | nil => rwa [unlines, String.intercalate_singleton]
  | cons second later =>
    rw [unlines, String.intercalate_cons_cons]
    exact head_append (head_append head)

theorem head_shownResult (positive : 0 < limits.kb_exec_max_output_chars) {output : String}
    {first : Char} (head : output.toList.head? = some first) :
    (shownResult platform limits (.ok output)).toList.head? = some first := by
  have shown : ∃ text, truncate platform limits output = .ok text ∧
      text.toList.head? = some first := by
    rw [truncate]
    split
    · obtain ⟨limit, formatted⟩ := platform.commas_number limits.kb_exec_max_output_chars
      refine ⟨_, congrArg (Except.map _) formatted,
        head_append (head_append (head_append (head_append ?_)))⟩
      rw [String.toList_ofList, List.head?_take, if_neg (Nat.ne_of_gt positive), head]
    · exact ⟨output, rfl, head⟩
  obtain ⟨text, done, first_char⟩ := shown
  simp only [shownResult, Except.bind, done]
  exact first_char

theorem head_stat_of_none (positive : 0 < limits.kb_exec_max_output_chars)
    (missing : resolve_file platform library user model_knowledge ref = none) :
    (shownResult platform limits
      (kb_stat platform library user model_knowledge [ref])).toList.head? = some 'F' := by
  rw [kb_stat, withContent, withFile, missing]
  exact head_shownResult positive (head_append rfl)

theorem head_statText {found : ResolvedFile} {content output : String}
    (done : statText platform found content = .ok output) :
    output.toList.head? = some ' ' := by
  simp only [statText, bind_eq_ok] at done
  obtain ⟨size, _, lines, _, words, _, chars, _, created, _, updated, _, done⟩ := done
  obtain rfl := Except.ok.inj done
  exact head_unlines (head_append rfl)

theorem single_ne_error (matched : List FileInfo) (message : String) :
    single library matched ≠ some (.error message) := by
  intro found
  rcases matched with _ | ⟨fi, _ | ⟨_, _⟩⟩
  · cases found
  · obtain ⟨_, _, is_file⟩ := Option.map_eq_some_iff.mp found
    cases is_file
  · cases found

theorem ambiguous_of_error {message : String}
    (resolved : resolve_file platform library user model_knowledge ref = some (.error message)) :
    ∃ matched, message = ambiguous ref matched := by
  rw [resolve_file] at resolved
  split at resolved
  · split at resolved
    · cases resolved
    · cases resolved
  · rcases Option.or_eq_some_iff.mp resolved with by_path | ⟨_, by_name⟩
    · obtain ⟨split, _, found⟩ := Option.bind_eq_some_iff.mp by_path
      obtain ⟨kb_id, _, found⟩ := List.exists_of_findSome?_eq_some found
      obtain ⟨dir_id, _, found⟩ := Option.bind_eq_some_iff.mp found
      exact absurd found (single_ne_error _ message)
    · rw [findByName] at by_name
      split at by_name
      · obtain ⟨rfl⟩ := by_name
        exact ⟨_, rfl⟩
      · exact absurd by_name (single_ne_error _ message)

theorem head_stat_of_some (positive : 0 < limits.kb_exec_max_output_chars) {found : Resolved}
    (resolved : resolve_file platform library user model_knowledge ref = some found) :
    (shownResult platform limits
      (kb_stat platform library user model_knowledge [ref])).toList.head? ≠ some 'F' := by
  have failed : ∀ error : String, (shownResult platform limits (.error error)).toList.head? ≠
      some 'F' := by
    intro error
    have head : ("Error: " ++ error).toList.head? = some 'E' := head_append rfl
    rw [shownResult, Except.bind, head]
    decide
  rw [kb_stat, withContent, withFile, resolved]
  cases found with
  | error message =>
    obtain ⟨matched, rfl⟩ := ambiguous_of_error resolved
    have head : (ambiguous ref matched).toList.head? = some 'A' :=
      head_append (head_append (head_append rfl))
    rw [head_shownResult positive head]
    decide
  | file found =>
    change (shownResult platform limits
      ((contentText found.content).bind (statText platform found))).toList.head? ≠ some 'F'
    cases told : (contentText found.content).bind (statText platform found) with
    | error error => exact failed error
    | ok output =>
      obtain ⟨content, _, done⟩ := bind_eq_ok.mp told
      rw [head_shownResult positive (head_statText done)]
      decide

theorem resolve_eq_none_iff (found : findAccessible platform library ref
    (get_accessible_files platform library user model_knowledge none) ≠ none) :
    resolve_file platform library user model_knowledge ref = none ↔
      Hidden platform user model_knowledge library ref := by
  rw [resolve_file, Hidden]
  cases extracted library ref with
  | none => simpa using found
  | some read =>
    by_cases here : ref ∈ (get_accessible_files platform library user model_knowledge none).map
        (fun fi => fi.id)
    · simp [here]
    · simp [here]

end Stat

/-- No file that is found under an argument has another file, in one of the states alone, that
hides it: one that may not be read, has extracted data, and has the argument as its id. -/
def Settled (platform : Platform) (user : User) (model_knowledge : List AttachedItem)
    (first second : Library) : Prop :=
  ∀ ref, isFlags platform ref = false →
    findAccessible platform first ref
        (get_accessible_files platform first user model_knowledge none) ≠ none →
      (Hidden platform user model_knowledge first ref ↔
        Hidden platform user model_knowledge second ref)

/-- Every command has the same output in two states that are the same as far as the user and the
model may read, if no argument finds a file that is hidden in one of them alone; and only then, when
any output is shown. -/
theorem kb_exec_same_iff {platform : Platform} {limits : Limits} {user : User}
    {model_knowledge : List AttachedItem} {first second : Library}
    (agree : Agree platform user model_knowledge first second) :
    (Settled platform user model_knowledge first second → ∀ command,
        kb_exec platform limits first user model_knowledge command =
          kb_exec platform limits second user model_knowledge command) ∧
      (0 < limits.kb_exec_max_output_chars →
        (∀ command, kb_exec platform limits first user model_knowledge command =
          kb_exec platform limits second user model_knowledge command) →
            Settled platform user model_knowledge first second) := by
  constructor
  · intro settled command
    refine kb_exec_same agree ?_ command
    intro ref plain
    exact (agree.resolve_file_iff ref).mpr (settled ref plain)
  · intro positive unchanged ref plain found
    have told := unchanged (String.ofList (statCommand ref.toList))
    rw [kb_exec_stat plain, kb_exec_stat plain] at told
    have found_second := found
    rw [agree.findAccessible, agree.accessible_files] at found_second
    rw [← resolve_eq_none_iff found, ← resolve_eq_none_iff found_second]
    -- `stat` tells whether the reference finds a file by the first character of its output
    have tells : ∀ library, resolve_file platform library user model_knowledge ref = none ↔
        (shownResult platform limits
          (kb_stat platform library user model_knowledge [ref])).toList.head? = some 'F' := by
      intro library
      constructor
      · exact head_stat_of_none positive
      · intro head
        cases resolved : resolve_file platform library user model_knowledge ref with
        | none => rfl
        | some value => exact absurd head (head_stat_of_some positive resolved)
    rw [tells first, tells second, told]

def groups : List Char → List Char
  | first :: second :: third :: rest =>
    if rest.isEmpty then [first, second, third] else first :: second :: third :: ',' :: groups rest
  | rest => rest

def asciiLower (text : String) : String := String.ofList (text.toList.map Char.toLower)

theorem asciiLower_ascii (text : String) (lower : ∀ char ∈ text.toList, 'a' ≤ char ∧ char ≤ 'z') :
    asciiLower text = text := by
  have each : text.toList.map Char.toLower = text.toList := by
    conv_rhs => rw [← List.map_id text.toList]
    refine List.map_congr_left ?_
    intro char member
    obtain ⟨low, _⟩ := lower char member
    refine dif_neg ?_
    rintro ⟨_, upper⟩
    have bound : ('a').val ≤ ('Z').val := UInt32.le_trans low upper
    exact absurd bound (by decide)
  rw [asciiLower, each, String.ofList_toList]

def ascii : Platform where
  isdigit := Char.isDigit
  decimal char := if char.isDigit then some (char.toNat - 48) else none
  lower := asciiLower
  lower_ascii := asciiLower_ascii
  str _ := "None"
  commas value := match value with
    | .num number =>
      if number.den = 1 then .ok ((if number < 0 then "-" else "") ++
        String.ofList (groups (toString number.num.natAbs).toList.reverse).reverse)
      else .error "not an integer"
    | _ => .error "unsupported format string"
  commas_number value := ⟨_, if_pos (Rat.den_natCast value)⟩
  strftime format _ := .ok format
  fnmatch name pattern := decide (name = pattern)
  regexError _ _ := none
  regexSearch _ _ _ _ := (some false, 0)
  setOrder := List.dedup
  mem_setOrder _ _ := List.mem_dedup
  nodup_setOrder := List.nodup_dedup

def defaults : Limits := ⟨500, 50, 50000⟩

def reader : User := ⟨"u", "user", by decide⟩

def textFile (user_id filename content : String) : Knowledge.FileModel :=
  ⟨user_id, none, filename, some [("content", .str content)], none, none, none⟩

def ownFile : Dict String Knowledge.FileModel := Dict.empty.set "f1" (textFile "u" "f2" "notes")

def libraryOf (file : Dict String Knowledge.FileModel) : Library where
  grants := ⟨[], [], [], []⟩
  knowledge := Dict.empty.set "k1" ⟨"u", "Base", none, 0⟩
  tables := ⟨file, .empty, Dict.empty.set ("k1", "f1") none⟩

def alone : Library := libraryOf ownFile

def besides : Library := libraryOf (ownFile.set "f2" (textFile "v" "diary.txt" "secret"))

theorem alone_agree_besides : Agree ascii reader [] alone besides := by
  refine ⟨rfl, fun _ _ => rfl, fun _ _ => rfl, ?_, by simp [attachedIds]⟩
  intro kb _ file_id linked
  have own : (kb.1, file_id) = ("k1", "f1") := List.mem_singleton.mp linked
  rw [(Prod.mk.inj own).2]
  decide

theorem kb_exec_same_besides :
    (Settled ascii reader [] alone besides → ∀ command,
        kb_exec ascii defaults alone reader [] command =
          kb_exec ascii defaults besides reader [] command) ∧
      (0 < defaults.kb_exec_max_output_chars →
        (∀ command, kb_exec ascii defaults alone reader [] command =
          kb_exec ascii defaults besides reader [] command) →
            Settled ascii reader [] alone besides) :=
  kb_exec_same_iff alone_agree_besides

theorem kb_exec_not_confined : ¬ ∀ platform limits user model_knowledge first second,
    Agree platform user model_knowledge first second → ∀ command,
      kb_exec platform limits first user model_knowledge command =
        kb_exec platform limits second user model_knowledge command := by
  intro confined
  have same := confined ascii defaults reader [] alone besides alone_agree_besides "cat f2"
  revert same
  decide +kernel

end OpenWebui.KnowledgeFs
