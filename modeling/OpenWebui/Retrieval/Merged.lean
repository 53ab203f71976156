import Mathlib.Data.List.Forall2
import OpenWebui.Base.Json

/-! `merge_docs_to_target_size`: neighbouring chunks are merged up to a target size. -/

namespace OpenWebui.Retrieval

/-- What is known about a chunk; a chunk that was not cut from a stored file has no file id. -/
structure Metadata where
  source : Option String
  file_id : Option String
  rest : Fields
deriving DecidableEq

structure Document where
  page_content : String
  metadata : Metadata
deriving DecidableEq

structure RetrievalConfig where
  CHUNK_MIN_SIZE_TARGET : Int
  CHUNK_SIZE : Int

def can_merge_chunks (a b : Document) : Bool :=
  if a.metadata.source ≠ b.metadata.source then false
  else
    match a.metadata.file_id, b.metadata.file_id with
    | some a_file_id, some b_file_id => decide (a_file_id = b_file_id)
    | _, _ => true

section Merge

variable (measure : String → Nat) (config : RetrievalConfig)

def merge_backward (result : List Document) (content : String) (chunk : Document) :
    Option (List Document) :=
  result.getLast?.bind (fun prev =>
    let merged := prev.page_content ++ "\n\n" ++ content
    if can_merge_chunks prev chunk ∧ (measure merged : Int) ≤ config.CHUNK_SIZE then
      some (result.dropLast ++ [⟨merged, prev.metadata⟩])
    else none)

def emit (result : List Document) (content : String) (chunk : Document) : List Document :=
  let merged := if (measure content : Int) < config.CHUNK_MIN_SIZE_TARGET then
    merge_backward measure config result content chunk else none
  merged.getD (result ++ [⟨content, chunk.metadata⟩])

/-- What the loop has emitted, and the chunk it is at with the content grown from it. -/
structure MergeState where
  result : List Document
  current : Option (Document × String)

def merge_step (state : MergeState) (next_chunk : Document) : MergeState :=
  match state.current with
  | none => ⟨state.result, some (next_chunk, next_chunk.page_content)⟩
  | some (current_chunk, current_content) =>
    let merged_content := current_content ++ "\n\n" ++ next_chunk.page_content
    if can_merge_chunks current_chunk next_chunk ∧
        (measure current_content : Int) < config.CHUNK_MIN_SIZE_TARGET ∧
        (measure merged_content : Int) ≤ config.CHUNK_SIZE then
      ⟨state.result, some (current_chunk, merged_content)⟩
    else
      ⟨emit measure config state.result current_content current_chunk,
        some (next_chunk, next_chunk.page_content)⟩

def merge_docs_to_target_size (chunks : List Document) : List Document :=
  if config.CHUNK_MIN_SIZE_TARGET ≤ 0 then chunks
  else
    let state := chunks.foldl (merge_step measure config) ⟨[], none⟩
    match state.current with
    | none => state.result
    | some (current_chunk, current_content) =>
      emit measure config state.result current_content current_chunk

end Merge

structure Run where
  first : Document
  others : List Document
deriving DecidableEq

namespace Run

def chunks (run : Run) : List Document := run.first :: run.others

def text (run : Run) : String := "\n\n".intercalate (run.chunks.map Document.page_content)

def document (run : Run) : Document := ⟨run.text, run.first.metadata⟩

def single (chunk : Document) : Run := ⟨chunk, []⟩

def append (run next : Run) : Run := ⟨run.first, run.others ++ next.chunks⟩

@[simp] theorem chunks_append (run next : Run) : (run.append next).chunks = run.chunks ++ next.chunks :=
  rfl

theorem mem_append {run next : Run} {chunk : Document} :
    chunk ∈ (run.append next).chunks ↔ chunk ∈ run.chunks ∨ chunk ∈ next.chunks := by
  rw [chunks_append, List.mem_append]

@[simp] theorem text_single (chunk : Document) : (single chunk).text = chunk.page_content :=
  String.intercalate_singleton

theorem text_append (run next : Run) : (run.append next).text = run.text ++ "\n\n" ++ next.text := by
  rw [text, chunks_append, List.map_append,
    String.intercalate_append_of_ne_nil (by simp [chunks]) (by simp [chunks])]
  rfl

end Run

/-- No two chunks are of different files. -/
def OneFile (chunks : List Document) : Prop :=
  ∀ a ∈ chunks, ∀ b ∈ chunks, ∀ a_file_id b_file_id, a.metadata.file_id = some a_file_id →
    b.metadata.file_id = some b_file_id → a_file_id = b_file_id

/-- Documents made of runs that part the chunks, none of two sources and none too long. -/
structure Parted (measure : String → Nat) (config : RetrievalConfig) (chunks documents : List Document)
    (runs : List Run) : Prop where
  whole : runs.flatMap Run.chunks = chunks
  made : documents = runs.map Run.document
  bounded : ∀ run ∈ runs, run.others ≠ [] → (measure run.text : Int) ≤ config.CHUNK_SIZE
  source : ∀ run ∈ runs, ∀ a ∈ run.chunks, ∀ b ∈ run.chunks, a.metadata.source = b.metadata.source

/-- Chunks are merged without being lost, reordered or mixed. -/
def MergedSoundly (measure : String → Nat) (config : RetrievalConfig)
    (chunks documents : List Document) : Prop :=
  ∃ runs, Parted measure config chunks documents runs ∧ ∀ run ∈ runs, OneFile run.chunks

section Runs

variable (measure : String → Nat) (config : RetrievalConfig)

/-- A run that is still too short, and with the next one not too long. -/
def Fits (run next : Run) (short : Run) : Prop :=
  can_merge_chunks run.first next.first = true ∧
    (measure short.text : Int) < config.CHUNK_MIN_SIZE_TARGET ∧
      (measure (run.append next).text : Int) ≤ config.CHUNK_SIZE

instance (run next short : Run) : Decidable (Fits measure config run next short) :=
  inferInstanceAs (Decidable (_ ∧ _ ∧ _))

def settle (emitted : List Run) (run : Run) : List Run :=
  match emitted.getLast? with
  | none => [run]
  | some prev =>
    if Fits measure config prev run run then emitted.dropLast ++ [prev.append run]
    else emitted ++ [run]

structure RunState where
  emitted : List Run
  current : Option Run

def grow (state : RunState) (chunk : Document) : RunState :=
  match state.current with
  | none => ⟨state.emitted, some (.single chunk)⟩
  | some run =>
    if Fits measure config run (.single chunk) run then
      ⟨state.emitted, some (run.append (.single chunk))⟩
    else ⟨settle measure config state.emitted run, some (.single chunk)⟩

def RunState.settled (state : RunState) : List Run :=
  match state.current with
  | none => state.emitted
  | some run => settle measure config state.emitted run

def grown (chunks : List Document) : RunState := chunks.foldl (grow measure config) ⟨[], none⟩

def RunState.shown (state : RunState) : MergeState :=
  ⟨state.emitted.map Run.document, state.current.map (fun run => (run.first, run.text))⟩

theorem emit_settle (emitted : List Run) (run : Run) :
    emit measure config (emitted.map Run.document) run.text run.first =
      (settle measure config emitted run).map Run.document := by
  rcases List.eq_nil_or_concat' emitted with rfl | ⟨before, prev, rfl⟩
  · simp [emit, merge_backward, settle, Run.document]
  · have same : can_merge_chunks prev.document run.first = can_merge_chunks prev.first run.first := rfl
    have text : prev.document.page_content ++ "\n\n" ++ run.text = (prev.append run).text :=
      (Run.text_append prev run).symm
    simp only [emit, merge_backward, settle, List.map_append, List.map_cons, List.map_nil,
      List.getLast?_concat, List.dropLast_concat, Option.bind_some, same, text, Fits]
    by_cases short : (measure run.text : Int) < config.CHUNK_MIN_SIZE_TARGET
    · rw [if_pos short]
      by_cases fits : can_merge_chunks prev.first run.first = true ∧
          (measure (prev.append run).text : Int) ≤ config.CHUNK_SIZE
      · rw [if_pos fits, if_pos ⟨fits.1, short, fits.2⟩]
        simp [Run.document, Run.append]
      · rw [if_neg fits, if_neg (fun all => fits ⟨all.1, all.2.2⟩)]
        simp [Run.document]
    · rw [if_neg short, if_neg (fun all => short all.2.1)]
      simp [Run.document]

theorem step_shown (state : RunState) (chunk : Document) :
    merge_step measure config state.shown chunk = (grow measure config state chunk).shown := by
  obtain ⟨emitted, current⟩ := state
  cases current with
  | none => rfl
  | some run =>
    have text : run.text ++ "\n\n" ++ chunk.page_content = (run.append (.single chunk)).text := by
      rw [Run.text_append, Run.text_single]
    simp only [merge_step, grow, RunState.shown, Option.map_some, text]
    by_cases fits : Fits measure config run (.single chunk) run
    · rw [if_pos fits]
      exact if_pos fits
    · rw [if_neg fits]
      refine (if_neg fits).trans ?_
      rw [emit_settle]
      rfl

theorem merge_docs_eq (target : 0 < config.CHUNK_MIN_SIZE_TARGET) (chunks : List Document) :
    merge_docs_to_target_size measure config chunks =
      ((grown measure config chunks).settled measure config).map Run.document := by
  have shown : ∀ (chunks : List Document) (state : RunState),
      chunks.foldl (merge_step measure config) state.shown =
        (chunks.foldl (grow measure config) state).shown := by
    intro chunks
    induction chunks with
    | nil => exact fun _ => rfl
    | cons chunk rest ih =>
      intro state
      rw [List.foldl_cons, step_shown, ih, List.foldl_cons]
  have loop := shown chunks ⟨[], none⟩
  rw [merge_docs_to_target_size, if_neg (Int.not_le.mpr target)]
  simp only [RunState.shown, List.map_nil, Option.map_none] at loop
  rw [loop, ← grown]
  cases current : (grown measure config chunks).current with
  | none => simp [RunState.settled, current]
  | some run => simp [RunState.settled, current, emit_settle]

end Runs

end OpenWebui.Retrieval

namespace OpenWebui.Retrieval

section Merging

variable {measure : String → Nat} {config : RetrievalConfig}

def RunState.runs (state : RunState) : List Run := state.emitted ++ state.current.toList

variable (measure config) in
def RunState.merging (state : RunState) (next : Option Document) : Option (Run × Run) :=
  state.current.bind (fun run =>
    match next.filter (fun chunk => decide (Fits measure config run (.single chunk) run)) with
    | some chunk => some (run, .single chunk)
    | none => (state.emitted.getLast?.filter (fun prev =>
        decide (Fits measure config prev run run))).map (fun prev => (prev, run)))

theorem settle_cases (emitted : List Run) (run : Run) :
    (settle measure config emitted run = emitted ++ [run] ∧
        emitted.getLast?.filter (fun prev => decide (Fits measure config prev run run)) = none) ∨
      ∃ before prev, emitted = before ++ [prev] ∧ Fits measure config prev run run ∧
        settle measure config emitted run = before ++ [prev.append run] := by
  rcases List.eq_nil_or_concat' emitted with rfl | ⟨before, prev, rfl⟩
  · exact .inl ⟨rfl, rfl⟩
  · simp only [settle, List.getLast?_concat, List.dropLast_concat]
    by_cases fits : Fits measure config prev run run
    · exact .inr ⟨before, prev, rfl, fits, if_pos fits⟩
    · exact .inl ⟨if_neg fits, by simp [fits]⟩

/-- Two neighbouring runs become one, or none do. -/
def Merges (pair : Option (Run × Run)) (old new : List Run) : Prop :=
  match pair with
  | none => new = old
  | some (run, next) => ∃ before after, old = before ++ run :: next :: after ∧
      new = before ++ run.append next :: after

theorem merging_of_fits {state : RunState} {run : Run} {chunk : Document}
    (current : state.current = some run) (fits : Fits measure config run (.single chunk) run) :
    state.merging measure config (some chunk) = some (run, .single chunk) := by
  have next : (some chunk).filter (fun chunk =>
      decide (Fits measure config run (.single chunk) run)) = some chunk := by
    rw [Option.filter_some, if_pos (decide_eq_true fits)]
  rw [RunState.merging, current, Option.bind_some, next]

theorem merging_of_not_fits {state : RunState} {run : Run} {next : Option Document}
    (current : state.current = some run)
    (stops : ∀ chunk, next = some chunk → ¬ Fits measure config run (.single chunk) run) :
    state.merging measure config next = (state.emitted.getLast?.filter (fun prev =>
      decide (Fits measure config prev run run))).map (fun prev => (prev, run)) := by
  have none_next : next.filter (fun chunk =>
      decide (Fits measure config run (.single chunk) run)) = none := by
    refine Option.filter_eq_none_iff.mpr (fun chunk same => ?_)
    simpa using stops chunk same
  simp [RunState.merging, current, none_next]

theorem settle_merges (emitted : List Run) (run : Run) :
    Merges ((emitted.getLast?.filter (fun prev => decide (Fits measure config prev run run))).map
      (fun prev => (prev, run))) (emitted ++ [run]) (settle measure config emitted run) := by
  rcases settle_cases emitted run with ⟨apart, alone⟩ | ⟨before, prev, rfl, fits, joined⟩
  · rw [alone]
    exact apart
  · rw [List.getLast?_concat, Option.filter_some, if_pos (decide_eq_true fits)]
    exact ⟨before, [], by simp, joined⟩

theorem grow_merges (state : RunState) (chunk : Document) :
    Merges (state.merging measure config (some chunk)) (state.runs ++ [.single chunk])
      (grow measure config state chunk).runs := by
  obtain ⟨emitted, current⟩ := state
  cases current with
  | none => exact congrArg (fun runs => runs ++ _) (List.append_nil emitted).symm
  | some run =>
    by_cases fits : Fits measure config run (.single chunk) run
    · rw [merging_of_fits rfl fits]
      refine ⟨emitted, [], by simp [RunState.runs], ?_⟩
      simp [grow, fits, RunState.runs]
    · have settled := @settle_merges measure config emitted run
      rw [merging_of_not_fits rfl (fun other same => Option.some.inj same ▸ fits)]
      have runs : (grow measure config ⟨emitted, some run⟩ chunk).runs =
          settle measure config emitted run ++ [.single chunk] := by
        simp [grow, fits, RunState.runs]
      rw [runs]
      revert settled
      cases (emitted.getLast?.filter (fun prev => decide (Fits measure config prev run run))).map
          (fun prev => (prev, run)) with
      | none => exact fun same => congrArg (fun runs => runs ++ _) same
      | some pair =>
        rintro ⟨before, after, old, new⟩
        refine ⟨before, after ++ [.single chunk], ?_, ?_⟩
        · rw [RunState.runs, Option.toList_some, old]
          simp
        · rw [new]
          simp

theorem settled_merges (state : RunState) :
    Merges (state.merging measure config none) state.runs (state.settled measure config) := by
  obtain ⟨emitted, current⟩ := state
  cases current with
  | none => exact (List.append_nil emitted).symm
  | some run =>
    rw [@merging_of_not_fits measure config ⟨emitted, some run⟩ run none rfl (by simp)]
    exact settle_merges emitted run

theorem merging_fits {state : RunState} {next : Option Document} {run later : Run}
    (merging : state.merging measure config next = some (run, later)) :
    can_merge_chunks run.first later.first = true ∧
      (measure (run.append later).text : Int) ≤ config.CHUNK_SIZE := by
  obtain ⟨current, grows, pair⟩ := Option.bind_eq_some_iff.mp merging
  split at pair
  · rename_i chunk kept
    obtain ⟨rfl, rfl⟩ := Prod.mk.inj (Option.some.inj pair)
    obtain ⟨_, fits⟩ := Option.filter_eq_some_iff.mp kept
    exact ⟨(of_decide_eq_true fits).1, (of_decide_eq_true fits).2.2⟩
  · obtain ⟨prev, kept, same⟩ := Option.map_eq_some_iff.mp pair
    obtain ⟨rfl, rfl⟩ := Prod.mk.inj same
    obtain ⟨_, fits⟩ := Option.filter_eq_some_iff.mp kept
    exact ⟨(of_decide_eq_true fits).1, (of_decide_eq_true fits).2.2⟩

theorem Merges.all {holds : Run → Prop} {pair : Option (Run × Run)} {old new : List Run}
    (merges : Merges pair old new) (before : ∀ run ∈ old, holds run)
    (kept : ∀ run next, pair = some (run, next) → holds run → holds next →
      holds (run.append next)) : ∀ run ∈ new, holds run := by
  cases pair with
  | none =>
    obtain rfl := merges
    exact before
  | some pair =>
    obtain ⟨run, next⟩ := pair
    obtain ⟨front, after, rfl, rfl⟩ := merges
    intro other member
    rcases List.mem_append.mp member with early | late
    · exact before other (List.mem_append_left _ early)
    · rcases List.mem_cons.mp late with rfl | later
      · exact kept run next rfl (before run (by simp)) (before next (by simp))
      · exact before other (by simp [later])

theorem Merges.whole {pair : Option (Run × Run)} {old new : List Run} (merges : Merges pair old new) :
    new.flatMap Run.chunks = old.flatMap Run.chunks := by
  cases pair with
  | none => rw [show new = old from merges]
  | some pair =>
    obtain ⟨front, after, rfl, rfl⟩ := merges
    simp

theorem Merges.covers {pair : Option (Run × Run)} {old new : List Run} (merges : Merges pair old new) :
    ∀ run ∈ old, ∃ larger ∈ new, run.chunks ⊆ larger.chunks := by
  intro run member
  cases pair with
  | none => exact ⟨run, show run ∈ new from merges ▸ member, List.Subset.refl _⟩
  | some pair =>
    obtain ⟨one, other⟩ := pair
    obtain ⟨front, after, rfl, rfl⟩ := merges
    have joined : one.append other ∈ front ++ one.append other :: after := by simp
    rcases List.mem_append.mp member with early | late
    · exact ⟨run, List.mem_append_left _ early, List.Subset.refl _⟩
    · rcases List.mem_cons.mp late with rfl | later
      · exact ⟨_, joined, List.subset_append_left _ _⟩
      · rcases List.mem_cons.mp later with rfl | after
        · exact ⟨_, joined, List.subset_append_right one.chunks run.chunks⟩
        · exact ⟨run, by simp [after], List.Subset.refl _⟩

theorem grown_concat (before : List Document) (chunk : Document) :
    grown measure config (before ++ [chunk]) =
      grow measure config (grown measure config before) chunk := by
  rw [grown, List.foldl_append]
  rfl

theorem all_grown {holds : Run → Prop} (single : ∀ chunk, holds (.single chunk))
    {chunks : List Document} (kept : ∀ before chunk after, chunks = before ++ chunk :: after →
      ∀ run next, (grown measure config before).merging measure config (some chunk) =
        some (run, next) → holds run → holds next → holds (run.append next)) :
    ∀ run ∈ (grown measure config chunks).runs, holds run := by
  induction chunks using List.reverseRecOn with
  | nil => exact fun run member => nomatch member
  | append_singleton before chunk ih =>
    rw [grown_concat]
    refine (grow_merges (grown measure config before) chunk).all ?_ (fun run next merging =>
      kept before chunk [] rfl run next merging)
    intro run member
    rcases List.mem_append.mp member with earlier | new
    · refine ih (fun front other after split => kept front other (after ++ [chunk]) ?_) run earlier
      rw [split]
      simp
    · rw [List.mem_singleton.mp new]
      exact single chunk

theorem whole_grown (chunks : List Document) :
    (grown measure config chunks).runs.flatMap Run.chunks = chunks := by
  induction chunks using List.reverseRecOn with
  | nil => rfl
  | append_singleton before chunk ih =>
    rw [grown_concat, (grow_merges (grown measure config before) chunk).whole, List.flatMap_append, ih]
    rfl

theorem all_settled {holds : Run → Prop} (single : ∀ chunk, holds (.single chunk))
    {chunks : List Document} (kept : ∀ before after, chunks = before ++ after →
      ∀ run next, (grown measure config before).merging measure config after.head? =
        some (run, next) → holds run → holds next → holds (run.append next)) :
    ∀ run ∈ (grown measure config chunks).settled measure config, holds run := by
  refine (settled_merges (grown measure config chunks)).all ?_
    (fun run next merging => kept chunks [] (List.append_nil chunks).symm run next merging)
  exact all_grown single (fun before chunk after split => kept before (chunk :: after) split)

theorem covers_grown (before after : List Document) :
    ∀ run ∈ (grown measure config before).runs,
      ∃ larger ∈ (grown measure config (before ++ after)).runs, run.chunks ⊆ larger.chunks := by
  induction after using List.reverseRecOn with
  | nil =>
    rw [List.append_nil]
    exact fun run member => ⟨run, member, List.Subset.refl _⟩
  | append_singleton earlier chunk ih =>
    intro run member
    obtain ⟨larger, there, inside⟩ := ih run member
    rw [← List.append_assoc, grown_concat]
    obtain ⟨largest, stays, around⟩ := (grow_merges _ chunk).covers larger
      (List.mem_append_left _ there)
    exact ⟨largest, stays, List.Subset.trans inside around⟩

theorem covers_merging {before after : List Document} {run next : Run}
    (merging : (grown measure config before).merging measure config after.head? =
      some (run, next)) :
    ∃ larger ∈ (grown measure config (before ++ after)).settled measure config,
      run.chunks ++ next.chunks ⊆ larger.chunks := by
  cases after with
  | nil =>
    have merges := @settled_merges measure config (grown measure config before)
    rw [List.head?_nil] at merging
    rw [merging] at merges
    obtain ⟨front, rest, _, new⟩ := merges
    rw [List.append_nil, new]
    exact ⟨run.append next, by simp, List.Subset.refl _⟩
  | cons chunk later =>
    have merges := @grow_merges measure config (grown measure config before) chunk
    rw [List.head?_cons] at merging
    rw [merging, ← grown_concat] at merges
    obtain ⟨front, rest, _, new⟩ := merges
    obtain ⟨larger, there, inside⟩ := covers_grown (before ++ [chunk]) later (run.append next)
      (by rw [new]; simp)
    rw [List.append_assoc, List.singleton_append] at there
    obtain ⟨largest, stays, around⟩ := (settled_merges _).covers larger there
    exact ⟨largest, stays, List.Subset.trans inside around⟩

end Merging

theorem Run.text_append_ne (run next : Run) : (run.append next).text ≠ run.text := by
  intro same
  have lengths := congrArg (fun text : String => text.toList.length) same
  simp [Run.text_append] at lengths

theorem runs_unique {runs others : List Run}
    (whole : runs.flatMap Run.chunks = others.flatMap Run.chunks)
    (made : runs.map Run.document = others.map Run.document) : runs = others := by
  induction runs generalizing others with
  | nil =>
    cases others with
    | nil => rfl
    | cons other rest => cases made
  | cons run rest ih =>
    cases others with
    | nil => cases made
    | cons other later =>
      rw [List.map_cons, List.map_cons] at made
      obtain ⟨same, made_rest⟩ := List.cons.inj made
      have text : run.text = other.text := (Document.mk.inj same).1
      rw [List.flatMap_cons, List.flatMap_cons] at whole
      have longer : ∀ {short long : Run} {extra : List Document}, long.chunks = short.chunks ++ extra →
          short.text = long.text → extra = [] := by
        intro short long extra split same
        cases extra with
        | nil => rfl
        | cons chunk more =>
          have joined : long = short.append ⟨chunk, more⟩ := by
            obtain ⟨first, others⟩ := long
            obtain ⟨same_first, same_others⟩ := List.cons.inj split
            exact Run.mk.injEq .. ▸ ⟨same_first, same_others⟩
          exact absurd (joined ▸ same).symm (Run.text_append_ne short ⟨chunk, more⟩)
      have chunks : run.chunks = other.chunks := by
        rcases List.append_eq_append_iff.mp whole with ⟨extra, split, _⟩ | ⟨extra, split, _⟩
        · rw [split, longer split text, List.append_nil]
        · rw [split, longer split text.symm, List.append_nil]
      have same_run : run = other := by
        obtain ⟨first, others⟩ := run
        obtain ⟨other_first, other_others⟩ := other
        obtain ⟨rfl, rfl⟩ := List.cons.inj chunks
        rfl
      rw [same_run, ih (List.append_cancel_left (chunks ▸ whole)) made_rest]

section Files

variable (measure : String → Nat) (config : RetrievalConfig)

/-- Where a first chunk without a file id lets two texts be merged, both are of one file. -/
def Careful (chunks : List Document) : Prop :=
  ∀ before after, chunks = before ++ after → ∀ run next,
    (grown measure config before).merging measure config after.head? = some (run, next) →
      run.first.metadata.file_id = none ∨ next.first.metadata.file_id = none →
        ∀ a ∈ run.chunks, ∀ b ∈ next.chunks, ∀ a_file_id b_file_id,
          a.metadata.file_id = some a_file_id → b.metadata.file_id = some b_file_id →
            a_file_id = b_file_id

variable {measure config}

theorem can_merge_source {a b : Document} (merge : can_merge_chunks a b = true) :
    a.metadata.source = b.metadata.source := by
  by_contra other
  rw [can_merge_chunks, if_pos other] at merge
  cases merge

theorem can_merge_file {a b : Document} {a_file_id b_file_id : String}
    (merge : can_merge_chunks a b = true) (first : a.metadata.file_id = some a_file_id)
    (second : b.metadata.file_id = some b_file_id) : a_file_id = b_file_id := by
  rw [can_merge_chunks, if_neg (not_not.mpr (can_merge_source merge)), first, second] at merge
  exact of_decide_eq_true merge

theorem oneFile_single (chunk : Document) : OneFile (Run.single chunk).chunks := by
  intro a in_a b in_b a_file_id b_file_id first second
  rw [List.mem_singleton.mp in_a] at first
  rw [List.mem_singleton.mp in_b] at second
  exact Option.some.inj (first.symm.trans second)

theorem oneFile_append {run next : Run} (first : OneFile run.chunks) (second : OneFile next.chunks)
    (across : ∀ a ∈ run.chunks, ∀ b ∈ next.chunks, ∀ a_file_id b_file_id,
      a.metadata.file_id = some a_file_id → b.metadata.file_id = some b_file_id →
        a_file_id = b_file_id) : OneFile (run.append next).chunks := by
  intro a in_a b in_b a_file_id b_file_id of_a of_b
  rcases Run.mem_append.mp in_a with in_run | in_next
  · rcases Run.mem_append.mp in_b with again | other
    · exact first a in_run b again _ _ of_a of_b
    · exact across a in_run b other _ _ of_a of_b
  · rcases Run.mem_append.mp in_b with other | again
    · exact (across b other a in_next _ _ of_b of_a).symm
    · exact second a in_next b again _ _ of_a of_b

theorem parted_settled (chunks : List Document) :
    Parted measure config chunks
      (((grown measure config chunks).settled measure config).map Run.document)
      ((grown measure config chunks).settled measure config) where
  whole := by
    rw [(settled_merges (grown measure config chunks)).whole, whole_grown]
  made := rfl
  bounded := by
    refine all_settled (fun chunk longer => absurd rfl longer) ?_
    intro before after _ run next merging _ _ _
    exact (merging_fits merging).2
  source := by
    refine all_settled ?_ ?_
    · intro chunk a in_a b in_b
      rw [List.mem_singleton.mp in_a, List.mem_singleton.mp in_b]
    · intro before after _ run next merging first second a in_a b in_b
      have firsts := can_merge_source (merging_fits merging).1
      have to_first : ∀ chunk ∈ (run.append next).chunks,
          chunk.metadata.source = run.first.metadata.source := by
        intro chunk member
        rcases Run.mem_append.mp member with inside | later
        · exact first chunk inside run.first List.mem_cons_self
        · exact (second chunk later next.first List.mem_cons_self).trans firsts.symm
      rw [to_first a in_a, to_first b in_b]

/-- Chunks are merged soundly exactly when no first chunk without a file id lets the texts of two
files be merged. -/
theorem merge_docs_sound_iff (target : 0 < config.CHUNK_MIN_SIZE_TARGET) (chunks : List Document) :
    MergedSoundly measure config chunks (merge_docs_to_target_size measure config chunks) ↔
      Careful measure config chunks := by
  rw [merge_docs_eq measure config target]
  have parted := @parted_settled measure config chunks
  constructor
  · rintro ⟨runs, other, files⟩ before after split run next merging _
    obtain rfl := runs_unique (other.whole.trans parted.whole.symm) (other.made.symm.trans parted.made)
    obtain ⟨larger, there, inside⟩ := covers_merging merging
    rw [← split] at there
    intro a in_a b in_b a_file_id b_file_id
    exact files larger there a (inside (List.mem_append_left _ in_a)) b
      (inside (List.mem_append_right _ in_b)) a_file_id b_file_id
  · intro careful
    refine ⟨_, parted, all_settled oneFile_single ?_⟩
    intro before after split run next merging first second
    refine oneFile_append first second ?_
    intro a in_a b in_b a_file_id b_file_id of_a of_b
    cases of_run : run.first.metadata.file_id with
    | none =>
      exact careful before after split run next merging (.inl of_run) a in_a b in_b _ _ of_a of_b
    | some run_file_id =>
      cases of_next : next.first.metadata.file_id with
      | none =>
        exact careful before after split run next merging (.inr of_next) a in_a b in_b _ _ of_a of_b
      | some next_file_id =>
        -- the first chunks were compared, and each stands for its run
        have compared := can_merge_file (merging_fits merging).1 of_run of_next
        calc a_file_id = run_file_id := first a in_a run.first List.mem_cons_self _ _ of_a of_run
          _ = next_file_id := compared
          _ = b_file_id := second next.first List.mem_cons_self b in_b _ _ of_next of_b

theorem careful_of_oneFile {chunks : List Document} (one : OneFile chunks) :
    Careful measure config chunks := by
  intro before after split run next merging _ a in_a b in_b
  obtain ⟨larger, there, inside⟩ := covers_merging merging
  rw [← split] at there
  have whole := (@parted_settled measure config chunks).whole
  have among : ∀ chunk ∈ run.chunks ++ next.chunks, chunk ∈ chunks := by
    intro chunk member
    rw [← whole]
    exact List.mem_flatMap.mpr ⟨larger, there, inside member⟩
  exact one a (among a (List.mem_append_left _ in_a)) b (among b (List.mem_append_right _ in_b))

end Files

def chunkOf (file_id : Option String) : Document := ⟨"x", ⟨some "web", file_id, []⟩⟩

def plentyConfig : RetrievalConfig := ⟨100, 100⟩

theorem one_file_merged : MergedSoundly String.length plentyConfig [chunkOf none, chunkOf (some "a")]
    (merge_docs_to_target_size String.length plentyConfig [chunkOf none, chunkOf (some "a")]) := by
  refine (merge_docs_sound_iff (by decide) _).mpr (careful_of_oneFile ?_)
  have ids : ∀ chunk ∈ [chunkOf none, chunkOf (some "a")], ∀ file_id,
      chunk.metadata.file_id = some file_id → file_id = "a" := by
    simp [chunkOf]
  intro a in_a b in_b a_file_id b_file_id of_a of_b
  exact (ids a in_a a_file_id of_a).trans (ids b in_b b_file_id of_b).symm

/-- A chunk without a file id takes in the chunks of two files. -/
theorem two_files_mixed : ¬ ∀ measure config, 0 < config.CHUNK_MIN_SIZE_TARGET → ∀ chunks,
    MergedSoundly measure config chunks (merge_docs_to_target_size measure config chunks) := by
  intro sound
  obtain ⟨runs, parted, files⟩ := sound String.length plentyConfig (by decide)
    [chunkOf none, chunkOf (some "a"), chunkOf (some "b")]
  have alone : runs.length = 1 := by
    rw [← List.length_map Run.document, ← parted.made]
    decide +kernel
  obtain ⟨run, rfl⟩ := List.length_eq_one_iff.mp alone
  have whole : run.chunks = [chunkOf none, chunkOf (some "a"), chunkOf (some "b")] := by
    simpa using parted.whole
  have same := files run (List.mem_singleton_self run) (chunkOf (some "a")) (by simp [whole])
    (chunkOf (some "b")) (by simp [whole]) "a" "b" rfl rfl
  exact absurd same (by decide)

end OpenWebui.Retrieval
