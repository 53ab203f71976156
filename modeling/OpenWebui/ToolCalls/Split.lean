import OpenWebui.Base.JsonScan
import OpenWebui.ToolCalls.Deltas

/-! Calls whose arguments are several values in a row are split into one call for each value, so
that each of them is executed. -/

namespace OpenWebui.StreamedCalls

open JsonScan

variable {ι : Type}

section Values

variable (limits : Limits)

/-- The loop of `split_json_objects` from a position on: the text from there and the results so
far. -/
def scan_values (raw text : List Char) (results : List (List Char)) :
    Except ScanError (List (List Char)) :=
  if (Text.lstrip text).isEmpty then .ok (if results.isEmpty then [raw] else results)
  else
    match decoded : raw_decode limits (Text.lstrip text) with
    | .error error => if error = .jsonDecodeError then .ok [raw] else .error error
    | .ok rest =>
      scan_values raw rest (results ++
        [Text.strip ((Text.lstrip text).take ((Text.lstrip text).length - rest.length))])
termination_by text.length
decreasing_by
  have read : rest.length < (Text.lstrip text).length := (reads_raw_decode decoded).shorter
  have stripped : (Text.lstrip text).length ≤ text.length :=
    (List.dropWhile_sublist Text.isSpace).length_le
  omega

def split_json_objects (raw : List Char) : Except ScanError (List (List Char)) :=
  scan_values limits raw raw []

/-- The text begins with no white space, and is not empty. -/
def Visible (text : List Char) : Prop :=
  ∃ first rest, text = first :: rest ∧ Text.isSpace first = false

/-- What a decoder reads when it starts again after each value: the values, and the error that it
ends with unless it comes to the end of the text. -/
inductive Reading : List Char → List (List Char) → Option ScanError → Prop
  | finished {gap : List Char} (white : Text.blank gap = true) : Reading gap [] none
  | stopped {gap text : List Char} {error : ScanError} (white : Text.blank gap = true)
      (visible : Visible text) (raised : raw_decode limits text = .error error) :
      Reading (gap ++ text) [] (some error)
  | value {gap piece rest : List Char} {pieces : List (List Char)} {ending : Option ScanError}
      (white : Text.blank gap = true) (visible : Visible piece)
      (decoded : raw_decode limits (piece ++ rest) = .ok rest)
      (later : Reading rest pieces ending) :
      Reading (gap ++ (piece ++ rest)) (piece :: pieces) ending

/-- A decoding of the values raises an error that is not about the syntax. -/
def Raises (raw : List Char) : Prop :=
  ∃ pieces error, Reading limits raw pieces (some error) ∧ error ≠ .jsonDecodeError

/-- The pieces are the text, without white space between them. -/
inductive Spaced : List Char → List (List Char) → Prop
  | done {gap : List Char} (white : Text.blank gap = true) : Spaced gap []
  | next {gap piece rest : List Char} {pieces : List (List Char)} (white : Text.blank gap = true)
      (later : Spaced rest pieces) : Spaced (gap ++ (piece ++ rest)) (piece :: pieces)

theorem Spaced.whole (raw : List Char) : Spaced raw [raw] := by
  have joined : Spaced ([] ++ (raw ++ [])) [raw] := .next rfl (.done rfl)
  rwa [List.nil_append, List.append_nil] at joined

theorem lstrip_visible {gap text : List Char} (white : Text.blank gap = true)
    (visible : Visible text) (rest : List Char) :
    Text.lstrip (gap ++ (text ++ rest)) = text ++ rest := by
  obtain ⟨first, later, rfl, shown⟩ := visible
  apply Text.lstrip_append white
  intro char head
  obtain rfl := Option.some.inj head
  exact shown

variable {limits}

theorem Reading.spaced {raw : List Char} {pieces : List (List Char)}
    (reading : Reading limits raw pieces none) : Spaced raw pieces := by
  generalize ended : (none : Option ScanError) = ending at reading
  induction reading with
  | finished white => exact .done white
  | stopped => cases ended
  | value white _ _ _ ih => exact .next white (ih ended)

theorem reading_exists (limits : Limits) (raw : List Char) :
    ∃ pieces ending, Reading limits raw pieces ending := by
  generalize measure : raw.length = size
  induction size using Nat.strong_induction_on generalizing raw with
  | _ size ih =>
    obtain ⟨gap, parts, white, starts⟩ := Text.lstrip_cases raw
    cases start : Text.lstrip raw with
    | nil =>
      rw [start, List.append_nil] at parts
      exact ⟨[], none, parts ▸ .finished white⟩
    | cons first rest =>
      have shown : Text.isSpace first = false := starts first (by rw [start]; rfl)
      rw [start] at parts
      cases decoded : raw_decode limits (first :: rest) with
      | error error =>
        rw [parts]
        exact ⟨[], some error, .stopped white ⟨first, rest, rfl, shown⟩ decoded⟩
      | ok later =>
        obtain ⟨read, last, whole, -⟩ := reads_raw_decode decoded
        have shorter : later.length < size := by
          have lengths := congrArg List.length parts
          rw [whole] at lengths
          simp only [List.length_append, List.length_cons] at lengths
          omega
        obtain ⟨pieces, ending, reading⟩ := ih later.length shorter later rfl
        have split : first :: rest = (read ++ [last]) ++ later := by
          rw [whole, List.append_assoc]
          rfl
        have visible : Visible (read ++ [last]) := by
          cases read with
          | nil => exact ⟨last, [], rfl, by cases whole; exact shown⟩
          | cons char middle => exact ⟨char, middle ++ [last], rfl, by cases whole; exact shown⟩
        rw [split] at parts decoded
        rw [parts]
        exact ⟨(read ++ [last]) :: pieces, ending, .value white visible decoded reading⟩

def outcome (raw : List Char) (results : List (List Char)) :
    Option ScanError → Except ScanError (List (List Char))
  | none => .ok (if results.isEmpty then [raw] else results)
  | some error => if error = .jsonDecodeError then .ok [raw] else .error error

theorem strip_piece {piece rest : List Char} (visible : Visible piece)
    (decoded : raw_decode limits (piece ++ rest) = .ok rest) :
    Text.strip ((piece ++ rest).take ((piece ++ rest).length - rest.length)) = piece := by
  obtain ⟨read, last, whole, shown⟩ := reads_raw_decode decoded
  have ends : piece = read ++ [last] := by
    apply List.append_cancel_right
    rw [whole, List.append_assoc]
    rfl
  have taken : (piece ++ rest).take ((piece ++ rest).length - rest.length) = piece := by
    rw [List.length_append, Nat.add_sub_cancel, List.take_left]
  rw [taken, ends]
  apply Text.strip_concat _ shown
  obtain ⟨first, later, parts, starts⟩ := visible
  intro char head
  rw [← ends, parts] at head
  obtain rfl := Option.some.inj head
  exact starts

theorem scan_values_eq {raw text : List Char} {pieces : List (List Char)}
    {ending : Option ScanError} (reading : Reading limits text pieces ending)
    (results : List (List Char)) :
    scan_values limits raw text results = outcome raw (results ++ pieces) ending := by
  induction reading generalizing results with
  | finished white =>
    rw [scan_values, Text.lstrip_eq_nil.mpr white, if_pos List.isEmpty_nil,
      List.append_nil]
    rfl
  | @stopped gap text error white visible raised =>
    have start := lstrip_visible white visible []
    rw [List.append_nil] at start
    have something : ¬ text.isEmpty = true := by
      obtain ⟨first, rest, rfl, -⟩ := visible
      exact Bool.false_ne_true
    rw [scan_values]
    simp only [start]
    rw [if_neg something]
    split
    · rename_i other same
      rw [start, raised] at same
      cases same
      rfl
    · rename_i rest decoded
      rw [start, raised] at decoded
      cases decoded
  | @value gap piece rest pieces ending white visible decoded _ ih =>
    have start := lstrip_visible white visible rest
    have something : ¬ (piece ++ rest).isEmpty = true := by
      obtain ⟨first, later, rfl, -⟩ := visible
      exact Bool.false_ne_true
    rw [scan_values]
    simp only [start]
    rw [if_neg something]
    split
    · rename_i other raised
      rw [start, decoded] at raised
      cases raised
    · rename_i other same
      rw [start, decoded] at same
      cases same
      rw [strip_piece visible decoded, ih, List.append_assoc]
      rfl

theorem split_json_objects_eq {raw : List Char} {pieces : List (List Char)}
    {ending : Option ScanError} (reading : Reading limits raw pieces ending) :
    split_json_objects limits raw = outcome raw pieces ending :=
  scan_values_eq reading []

end Values

section Split

variable (limits : Limits) (dumps : Json → List Char) (fresh : Nat → String)

/-- The copies of a call, one for each value; `fresh` gives the ids that have not been used. -/
def cloned (call : ToolCall ι) : Nat → List (List Char) → List (ToolCall ι)
  | _, [] => []
  | used, argument :: rest =>
    { call with id := some (fresh used), arguments := .text argument } ::
      cloned call (used + 1) rest

/-- What is appended to `expanded` for one call, and how many ids are used after it. -/
def expand_tool_call (used : Nat) (call : ToolCall ι) :
    Except ScanError (List (ToolCall ι) × Nat) := do
  let arguments := call.arguments.written dumps
  let split_arguments ← split_json_objects limits arguments
  if split_arguments.length ≤ 1 then
    .ok ([{ call with arguments := .text arguments }], used)
  else
    .ok (cloned fresh call used split_arguments, used + split_arguments.length)

/-- `_split_tool_calls`. -/
def split_tool_calls : Nat → List (ToolCall ι) → Except ScanError (List (ToolCall ι))
  | _, [] => .ok []
  | used, call :: rest => do
    let expansion ← expand_tool_call limits dumps fresh used call
    let expanded ← split_tool_calls expansion.2 rest
    .ok (expansion.1 ++ expanded)

/-- What one call becomes: a run of calls of its name, with its arguments; the call itself, unless
the arguments are several values. -/
structure SplitInto (call : ToolCall ι) (run : List (ToolCall ι)) : Prop where
  nonempty : run ≠ []
  names : ∀ part ∈ run, part.name = call.name
  spaced : Spaced (call.arguments.written dumps)
    (run.map (fun part => part.arguments.written dumps))
  untouched : ∀ pieces ending, Reading limits (call.arguments.written dumps) pieces ending →
    (pieces.length ≤ 1 ∨ ending ≠ none) → run = [call]
  each : ∀ pieces, Reading limits (call.arguments.written dumps) pieces none →
    2 ≤ pieces.length → run.map ToolCall.arguments = pieces.map Arguments.text

theorem length_cloned (call : ToolCall ι) (used : Nat) (pieces : List (List Char)) :
    (cloned fresh call used pieces).length = pieces.length := by
  induction pieces generalizing used with
  | nil => rfl
  | cons argument rest ih => rw [cloned, List.length_cons, ih, List.length_cons]

theorem cloned_arguments (call : ToolCall ι) (used : Nat) (pieces : List (List Char)) :
    (cloned fresh call used pieces).map ToolCall.arguments = pieces.map Arguments.text := by
  induction pieces generalizing used with
  | nil => rfl
  | cons argument rest ih => rw [cloned, List.map_cons, ih, List.map_cons]

theorem cloned_names (call : ToolCall ι) (used : Nat) (pieces : List (List Char)) :
    ∀ part ∈ cloned fresh call used pieces, part.name = call.name := by
  induction pieces generalizing used with
  | nil =>
    intro part member
    cases member
  | cons argument rest ih =>
    intro part member
    rcases List.mem_cons.mp member with rfl | later
    · rfl
    · exact ih (used + 1) part later

theorem cloned_ids (call : ToolCall ι) (used : Nat) (pieces : List (List Char)) :
    (cloned fresh call used pieces).map ToolCall.id =
      (List.range' used pieces.length).map (fun number => some (fresh number)) := by
  induction pieces generalizing used with
  | nil => rfl
  | cons argument rest ih =>
    rw [cloned, List.map_cons, ih, List.length_cons, List.range'_succ, List.map_cons]

section One

variable {limits} {call : ToolCall ι} {pieces : List (List Char)} {ending : Option ScanError}

theorem expand_whole (used : Nat) (few : pieces.length ≤ 1 ∨ ending ≠ none)
    (reading : Reading limits (call.arguments.written dumps) pieces ending) :
    expand_tool_call limits dumps fresh used call =
        .ok ([{ call with arguments := .text (call.arguments.written dumps) }], used) ∨
      ∃ error, expand_tool_call limits dumps fresh used call = .error error := by
  simp only [expand_tool_call, split_json_objects_eq reading]
  cases ending with
  | none =>
    left
    have short : pieces.length ≤ 1 := by simpa using few
    cases pieces with
    | nil => rfl
    | cons piece rest =>
      simp only [outcome, List.isEmpty_cons]
      exact if_pos short
  | some error =>
    simp only [outcome]
    split
    · left
      rfl
    · right
      exact ⟨error, rfl⟩

theorem expand_each (used : Nat) (several : 2 ≤ pieces.length)
    (reading : Reading limits (call.arguments.written dumps) pieces none) :
    expand_tool_call limits dumps fresh used call =
      .ok (cloned fresh call used pieces, used + pieces.length) := by
  simp only [expand_tool_call, split_json_objects_eq reading]
  cases pieces with
  | nil => cases several
  | cons piece rest =>
    simp only [outcome, List.isEmpty_cons]
    exact if_neg (Nat.not_le.mpr several)

theorem expand_goes_through_iff (used : Nat) :
    (∃ expansion, expand_tool_call limits dumps fresh used call = .ok expansion) ↔
      ¬ Raises limits (call.arguments.written dumps) := by
  constructor
  · rintro ⟨expansion, expanded⟩ ⟨pieces, error, reading, other⟩
    simp only [expand_tool_call, split_json_objects_eq reading, outcome, if_neg other] at expanded
    cases expanded
  · intro quiet
    obtain ⟨pieces, ending, reading⟩ := reading_exists limits (call.arguments.written dumps)
    cases ending with
    | none =>
      by_cases few : pieces.length ≤ 1
      · simp only [expand_tool_call, split_json_objects_eq reading, outcome]
        exact ⟨_, if_pos (by split <;> simp [few])⟩
      · exact ⟨_, expand_each dumps fresh used (by omega) reading⟩
    | some error =>
      have syntactic : error = .jsonDecodeError := by
        by_contra other
        exact quiet ⟨pieces, error, reading, other⟩
      simp only [expand_tool_call, split_json_objects_eq reading, outcome, if_pos syntactic]
      exact ⟨_, rfl⟩

/-- The ids of what a call becomes are its own or unused ones. -/
def OwnIds (call : ToolCall ι) (used : Nat) (expansion : List (ToolCall ι) × Nat) : Prop :=
  (expansion.1.map ToolCall.id = [call.id] ∧ expansion.2 = used) ∨
    ∃ count, expansion.1.map ToolCall.id =
      (List.range' used count).map (fun number => some (fresh number)) ∧
        expansion.2 = used + count

theorem expand_splits {used : Nat} {raw : List Char} (text : call.arguments = .text raw)
    {expansion : List (ToolCall ι) × Nat}
    (expanded : expand_tool_call limits dumps fresh used call = .ok expansion) :
    SplitInto limits dumps call expansion.1 ∧ OwnIds fresh call used expansion := by
  have itself : { call with arguments := .text (call.arguments.written dumps) } = call := by
    rw [text, Arguments.written, ← text]
  have untouched : ∀ pieces ending,
      Reading limits (call.arguments.written dumps) pieces ending →
        (pieces.length ≤ 1 ∨ ending ≠ none) → expansion = ([call], used) := by
    intro pieces ending reading few
    rcases expand_whole dumps fresh used few reading with whole | ⟨error, raised⟩
    · rw [expanded, itself] at whole
      exact Except.ok.inj whole
    · rw [expanded] at raised
      cases raised
  have each : ∀ pieces, Reading limits (call.arguments.written dumps) pieces none →
      2 ≤ pieces.length → expansion = (cloned fresh call used pieces, used + pieces.length) := by
    intro pieces reading several
    have cloned := expand_each dumps fresh used several reading
    rw [expanded] at cloned
    exact Except.ok.inj cloned
  have first : ∀ pieces ending, Reading limits (call.arguments.written dumps) pieces ending →
      (pieces.length ≤ 1 ∨ ending ≠ none) → expansion.1 = [call] := by
    intro pieces ending reading few
    rw [untouched pieces ending reading few]
  have second : ∀ pieces, Reading limits (call.arguments.written dumps) pieces none →
      2 ≤ pieces.length →
        expansion.1.map ToolCall.arguments = pieces.map Arguments.text := by
    intro pieces reading several
    rw [each pieces reading several, cloned_arguments]
  obtain ⟨pieces, ending, reading⟩ := reading_exists limits (call.arguments.written dumps)
  by_cases few : pieces.length ≤ 1 ∨ ending ≠ none
  · have run := untouched pieces ending reading few
    subst run
    refine ⟨⟨List.cons_ne_nil call [], ?_, Spaced.whole _, first, second⟩, Or.inl ⟨rfl, rfl⟩⟩
    intro part member
    rw [List.mem_singleton.mp member]
  · obtain ⟨several, complete⟩ := not_or.mp few
    obtain rfl := not_not.mp complete
    have run := each pieces reading (by omega)
    subst run
    refine ⟨⟨?_, cloned_names fresh call used pieces, ?_, first, second⟩, Or.inr ⟨pieces.length,
      cloned_ids fresh call used pieces, rfl⟩⟩
    · intro empty
      have none := congrArg List.length empty
      rw [length_cloned, List.length_nil] at none
      omega
    · have texts : (cloned fresh call used pieces).map
          (fun part => part.arguments.written dumps) = pieces := by
        have written := congrArg (List.map (Arguments.written dumps))
          (cloned_arguments fresh call used pieces)
        rw [List.map_map, List.map_map] at written
        exact written.trans (List.map_id pieces)
      rw [texts]
      exact reading.spaced

end One

theorem split_goes_through_iff (used : Nat) (calls : List (ToolCall ι)) :
    (∃ result, split_tool_calls limits dumps fresh used calls = .ok result) ↔
      ∀ call ∈ calls, ¬ Raises limits (call.arguments.written dumps) := by
  induction calls generalizing used with
  | nil => exact ⟨fun _ call member => absurd member List.not_mem_nil, fun _ => ⟨[], rfl⟩⟩
  | cons call rest ih =>
    rw [List.forall_mem_cons, ← expand_goes_through_iff dumps fresh used]
    constructor
    · rintro ⟨result, finished⟩
      obtain ⟨expansion, expanded, finished⟩ := bind_eq_ok.mp finished
      obtain ⟨later, others, -⟩ := bind_eq_ok.mp finished
      exact ⟨⟨expansion, expanded⟩, (ih expansion.2).mp ⟨later, others⟩⟩
    · rintro ⟨⟨expansion, expanded⟩, quiet⟩
      obtain ⟨later, others⟩ := (ih expansion.2).mpr quiet
      exact ⟨expansion.1 ++ later,
        bind_eq_ok.mpr ⟨expansion, expanded, bind_eq_ok.mpr ⟨later, others, rfl⟩⟩⟩

theorem split_runs {used : Nat} {calls result : List (ToolCall ι)}
    (texts : ∀ call ∈ calls, ∃ raw, call.arguments = .text raw)
    (finished : split_tool_calls limits dumps fresh used calls = .ok result) :
    ∃ runs : List (List (ToolCall ι)), result = runs.flatten ∧
      List.Forall₂ (SplitInto limits dumps) calls runs := by
  induction calls generalizing used result with
  | nil =>
    cases finished
    exact ⟨[], rfl, .nil⟩
  | cons call rest ih =>
    obtain ⟨expansion, expanded, finished⟩ := bind_eq_ok.mp finished
    obtain ⟨later, others, finished⟩ := bind_eq_ok.mp finished
    cases finished
    obtain ⟨raw, text⟩ := texts call List.mem_cons_self
    obtain ⟨runs, rfl, each⟩ := ih (fun call member => texts call (.tail _ member)) others
    exact ⟨expansion.1 :: runs, rfl, .cons (expand_splits dumps fresh text expanded).1 each⟩

theorem split_ids {used : Nat} {calls result : List (ToolCall ι)}
    (texts : ∀ call ∈ calls, ∃ raw, call.arguments = .text raw)
    (finished : split_tool_calls limits dumps fresh used calls = .ok result) :
    ∃ (kept : List (Option String)) (count : Nat), kept.Sublist (calls.map ToolCall.id) ∧
      (result.map ToolCall.id).Perm
        (kept ++ (List.range' used count).map (fun number => some (fresh number))) := by
  induction calls generalizing used result with
  | nil =>
    cases finished
    exact ⟨[], 0, .slnil, .refl _⟩
  | cons call rest ih =>
    obtain ⟨expansion, expanded, finished⟩ := bind_eq_ok.mp finished
    obtain ⟨later, others, finished⟩ := bind_eq_ok.mp finished
    cases finished
    obtain ⟨raw, text⟩ := texts call List.mem_cons_self
    obtain ⟨kept, count, old, same⟩ := ih (fun call member => texts call (.tail _ member)) others
    rw [List.map_append]
    rcases (expand_splits dumps fresh text expanded).2 with ⟨own, next⟩ | ⟨more, own, next⟩
    · refine ⟨call.id :: kept, count, old.cons_cons call.id, ?_⟩
      rw [own, ← next]
      exact same.cons call.id
    · refine ⟨kept, more + count, old.cons call.id, ?_⟩
      rw [own, ← List.range'_append_1, ← next, List.map_append]
      exact (same.append_left _).trans (List.perm_append_comm_assoc _ _ _)

theorem count_ids_le (distinct : Function.Injective fresh) {used : Nat}
    {calls result : List (ToolCall ι)} (texts : ∀ call ∈ calls, ∃ raw, call.arguments = .text raw)
    (unused : ∀ call ∈ calls, ∀ number, call.id ≠ some (fresh number))
    (finished : split_tool_calls limits dumps fresh used calls = .ok result)
    (id : Option String) :
    (result.map ToolCall.id).count id ≤ max 1 ((calls.map ToolCall.id).count id) := by
  obtain ⟨kept, count, old, same⟩ := split_ids limits dumps fresh texts finished
  rw [same.count_eq, List.count_append]
  have few : kept.count id ≤ (calls.map ToolCall.id).count id := old.count_le id
  by_cases new : id ∈ (List.range' used count).map (fun number => some (fresh number))
  · have once : ((List.range' used count).map (fun number => some (fresh number))).count id ≤ 1 := by
      apply List.nodup_iff_count_le_one.mp
      apply List.Nodup.map _ List.nodup_range'
      intro first second together
      exact distinct (Option.some.inj together)
    have absent : kept.count id = 0 := by
      apply List.count_eq_zero.mpr
      intro member
      obtain ⟨number, -, rfl⟩ := List.mem_map.mp new
      obtain ⟨call, given, named⟩ := List.mem_map.mp (old.subset member)
      exact unused call given number named
    omega
  · rw [List.count_eq_zero.mpr new]
    omega

end Split

section Response

variable [DecidableEq ι] (limits : Limits) (dumps : Json → List Char) (fresh : Nat → String)

/-- The calls of a response are put together without loss, whatever the order in which the deltas
of different calls come, and each of them is split into runs without loss. -/
structure Lossless (used : Nat) (deltas : List (Delta ι)) : Prop where
  assembled : Assembled dumps deltas (stream_tool_calls dumps deltas)
  interleaved : ∀ other : List (Delta ι),
    (∀ index, fragments index other = fragments index deltas) →
      (stream_tool_calls dumps other).Perm (stream_tool_calls dumps deltas)
  split : ∃ result, split_tool_calls limits dumps fresh used (stream_tool_calls dumps deltas) =
      .ok result ∧
    (∃ runs : List (List (ToolCall ι)), result = runs.flatten ∧
      List.Forall₂ (SplitInto limits dumps) (stream_tool_calls dumps deltas) runs) ∧
    ∀ id, (result.map ToolCall.id).count id ≤
      max 1 (((stream_tool_calls dumps deltas).map ToolCall.id).count id)

theorem raises_nowhere_iff (deltas : List (Delta ι)) :
    (∀ call ∈ stream_tool_calls dumps deltas, ¬ Raises limits (call.arguments.written dumps)) ↔
      ∀ index ∈ appearances deltas,
        ¬ Raises limits (argumentsText dumps (fragments index deltas)) := by
  rw [stream_tool_calls_eq, List.forall_mem_map]
  apply forall₂_congr
  intro index known
  rw [assemble_arguments dumps index (mem_appearances_iff_fragments.mp known), Arguments.written]

/-- Nothing is lost between the deltas and the calls that are executed, unless decoding the
arguments of a call raises something else than a `JSONDecodeError`, which is not caught. -/
theorem stream_split_lossless_iff (distinct : Function.Injective fresh) (used : Nat)
    (deltas : List (Delta ι)) (announced : Announced deltas)
    (unused : ∀ delta ∈ deltas, ∀ number, delta.id ≠ some (fresh number)) :
    Lossless limits dumps fresh used deltas ↔
      ∀ index ∈ appearances deltas,
        ¬ Raises limits (argumentsText dumps (fragments index deltas)) := by
  have assembled := stream_tool_calls_assembled dumps announced
  rw [← raises_nowhere_iff, ← split_goes_through_iff limits dumps fresh used]
  constructor
  · rintro ⟨-, -, result, finished, -⟩
    exact ⟨result, finished⟩
  · rintro ⟨result, finished⟩
    have texts : ∀ call ∈ stream_tool_calls dumps deltas, ∃ raw, call.arguments = .text raw := by
      intro call member
      obtain ⟨first, later, -, -, -, text⟩ := assembled.calls call member
      exact ⟨_, text⟩
    have unusedIds : ∀ call ∈ stream_tool_calls dumps deltas,
        ∀ number, call.id ≠ some (fresh number) := by
      intro call member
      obtain ⟨first, later, parts, same, -⟩ := assembled.calls call member
      have kept : first ∈ fragments call.index deltas := by
        rw [parts]
        exact List.mem_cons_self
      rw [same]
      exact unused first (List.mem_filter.mp kept).1
    exact ⟨assembled, fun other same => stream_tool_calls_perm dumps same, result, finished,
      split_runs limits dumps fresh texts finished,
      count_ids_le limits dumps fresh distinct texts unusedIds finished⟩

end Response

/-- `{"n": 11…1}`. -/
def longInteger (digits : Nat) : List Char :=
  '\x7b' :: '"' :: 'n' :: '"' :: ':' :: (List.replicate digits '1' ++ ['\x7d'])

theorem raw_decode_longInteger (limits : Limits) (deep : 0 < limits.depth) :
    raw_decode limits (longInteger (limits.digits + 1)) = .error .valueError := by
  obtain ⟨digits, depth⟩ := limits
  obtain ⟨depth, rfl⟩ := Nat.exists_eq_succ_of_ne_zero (Nat.pos_iff_ne_zero.mp deep)
  have number : (scan_once digits depth).scan (List.replicate (digits + 1) '1' ++ ['\x7d']) =
      .error .valueError := by
    have taken : (List.replicate digits '1' ++ ['\x7d']).takeWhile Char.isDigit =
        List.replicate digits '1' := by
      rw [List.takeWhile_append_of_pos]
      · simp
      · intro char member
        rw [List.eq_of_mem_replicate member]
        decide
    have dropped : afterDigits (List.replicate digits '1' ++ ['\x7d']) = ['\x7d'] := by
      rw [afterDigits, List.dropWhile_append_of_pos]
      · rfl
      · intro char member
        rw [List.eq_of_mem_replicate member]
        decide
    have matched : match_number digits ('1' :: (List.replicate digits '1' ++ ['\x7d'])) =
        .error .valueError := by
      simp [match_number, taken, dropped, finishNumber, afterFraction, afterExponent]
    rw [List.replicate_succ, List.cons_append]
    cases depth <;> exact matched
  have entry : (member (scan_once digits depth)).scan
      ('"' :: 'n' :: '"' :: ':' :: (List.replicate (digits + 1) '1' ++ ['\x7d'])) =
        .error .valueError := by
    rw [List.replicate_succ, List.cons_append] at number ⊢
    simp [member, expect, scanstring_plain, scanstring_quote, skip, isWhitespace, number, bind,
      Except.bind]
  have opened : raw_decode ⟨digits, depth + 1⟩ (longInteger (digits + 1)) =
      entries '\x7d' (member (scan_once digits depth))
        ('"' :: 'n' :: '"' :: ':' :: (List.replicate (digits + 1) '1' ++ ['\x7d'])) := by
    rw [longInteger]
    simp [raw_decode, scan_once, scanValue, parse_object, container, skip, isWhitespace]
  rw [opened, entries]
  split
  · rename_i error raised
    rw [entry] at raised
    exact raised.symm
  · rename_i rest scanned
    rw [entry] at scanned
    cases scanned

def sampleLimits : Limits := ⟨4300, 900⟩

def sampleDumps : Json → List Char
  | .obj [] => "\x7b\x7d".toList
  | _ => "null".toList

def sampleFresh (number : Nat) : String :=
  String.ofList ('c' :: 'a' :: 'l' :: 'l' :: '_' :: List.replicate number '0')

theorem sampleFresh_injective : Function.Injective sampleFresh := by
  intro first second same
  have lengths := congrArg List.length (String.ofList_injective same)
  simpa using lengths

def sampleDeltas : List (Delta Nat) :=
  [⟨some 0, some "a", some "search", .text "\x7b\"q\":".toList⟩,
    ⟨some 1, some "b", some "clock", .other (.obj [])⟩,
    ⟨some 0, none, none, .text "1\x7d \x7b\"q\":".toList⟩,
    ⟨some 1, none, some "", .none⟩,
    ⟨some 0, none, none, .text "2\x7d".toList⟩]

theorem sampleDeltas_announced : Announced sampleDeltas := by
  intro index first later parts
  rcases index with _ | _ | index
  · simp [fragments, sampleDeltas] at parts
    obtain ⟨rfl, rfl⟩ := parts
    exact ⟨⟨"a", rfl⟩, "search", rfl, by simp [Repeats]⟩
  · simp [fragments, sampleDeltas] at parts
    obtain ⟨rfl, rfl⟩ := parts
    exact ⟨⟨"b", rfl⟩, "clock", rfl, by simp [Repeats]⟩
  · simp [fragments, sampleDeltas] at parts

theorem sampleFresh_head (number : Nat) : (sampleFresh number).toList.head? = some 'c' := by
  simp [sampleFresh]

theorem sampleDeltas_lossless : Lossless sampleLimits sampleDumps sampleFresh 0 sampleDeltas := by
  have unused : ∀ delta ∈ sampleDeltas, ∀ number, delta.id ≠ some (sampleFresh number) := by
    intro delta member number same
    have start : delta.id.map (fun id => id.toList.head?) = some (some 'c') := by
      rw [same, Option.map_some, sampleFresh_head]
    have other : ∀ delta ∈ sampleDeltas,
        delta.id.map (fun id => id.toList.head?) ≠ some (some 'c') := by decide
    exact other delta member start
  apply (stream_split_lossless_iff sampleLimits sampleDumps sampleFresh sampleFresh_injective 0
    sampleDeltas sampleDeltas_announced unused).mpr
  rw [← raises_nowhere_iff, ← split_goes_through_iff sampleLimits sampleDumps sampleFresh 0]
  have finished : (split_tool_calls sampleLimits sampleDumps sampleFresh 0
      (stream_tool_calls sampleDumps sampleDeltas)).toOption.isSome = true := by decide +kernel
  cases run : split_tool_calls sampleLimits sampleDumps sampleFresh 0
      (stream_tool_calls sampleDumps sampleDeltas) with
  | error error =>
    rw [run] at finished
    cases finished
  | ok result => exact ⟨result, rfl⟩

def longDeltas : List (Delta Nat) :=
  [⟨some 0, some "a", some "count", .text (longInteger 4301)⟩]

/-- The integer is no syntax error: it is converted, which raises a `ValueError`. -/
theorem longDeltas_not_split :
    Announced longDeltas ∧
      (∀ delta ∈ longDeltas, ∀ number, delta.id ≠ some (sampleFresh number)) ∧
        ¬ Lossless sampleLimits sampleDumps sampleFresh 0 longDeltas := by
  refine ⟨?_, ?_, ?_⟩
  · intro index first later parts
    rcases index with _ | index
    · simp [fragments, longDeltas] at parts
      obtain ⟨rfl, rfl⟩ := parts
      exact ⟨⟨"a", rfl⟩, "count", rfl, by simp⟩
    · simp [fragments, longDeltas] at parts
  · intro delta member number same
    obtain rfl := List.mem_singleton.mp member
    have start := sampleFresh_head number
    rw [← Option.some.inj same] at start
    revert start
    decide
  · rintro ⟨-, -, result, finished, -⟩
    have quiet := (split_goes_through_iff sampleLimits sampleDumps sampleFresh 0 _).mp
      ⟨result, finished⟩
    have long : raw_decode sampleLimits (longInteger 4301) = .error .valueError :=
      raw_decode_longInteger sampleLimits (by decide)
    apply quiet (begin_tool_call sampleDumps 0 ⟨some 0, some "a", some "count",
      .text (longInteger 4301)⟩) (List.mem_singleton.mpr rfl)
    exact ⟨[], .valueError, @Reading.stopped _ [] _ _ rfl ⟨_, _, rfl, by decide⟩ long, by decide⟩

end OpenWebui.StreamedCalls
