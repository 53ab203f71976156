import Mathlib.Data.List.Induction
import OpenWebui.Base.Text

/-! `stream_chunks_handler`: the lines of a byte stream that arrives in chunks, one piece a line,
without those that are too long. -/

namespace OpenWebui.Utils

abbrev Bytes := List UInt8

/-- `b'\n'`. -/
def newline : UInt8 := 10

/-- `b'data: {}\n'`. -/
def emptyData : Bytes := "data: \x7b\x7d\n".toUTF8.toList

def yieldLine (max_buffer_size : Nat) (before : Bool × List Bytes) (line : Bytes) :
    Bool × List Bytes :=
  let (skip_mode, pieces) := before
  if skip_mode then
    if line.length ≤ max_buffer_size then (false, pieces ++ [line])
    else (true, pieces ++ [emptyData])
  else if max_buffer_size < line.length then (true, pieces ++ [emptyData])
  else (false, pieces ++ [line ++ [newline]])

/-- What the generator remembers from one chunk to the next. -/
structure Reading where
  buffer : Bytes
  skip_mode : Bool

def readChunk (max_buffer_size : Nat) (reading : Reading) (data : Bytes) :
    Reading × List Bytes :=
  if data.isEmpty then (reading, [])
  else
    let buffer :=
      if reading.skip_mode && decide (max_buffer_size < reading.buffer.length) then []
      else reading.buffer
    let lines := (buffer ++ data).splitOn newline
    let (skip_mode, pieces) := lines.dropLast.foldl (yieldLine max_buffer_size)
      (reading.skip_mode, [])
    let buffer := lines.getLastD []
    if !skip_mode && decide (max_buffer_size < buffer.length) then (⟨[], true⟩, pieces)
    else (⟨buffer, skip_mode⟩, pieces)

def readChunks (max_buffer_size : Nat) (chunks : List Bytes) : Reading × List Bytes :=
  chunks.foldl (fun before data =>
    let (reading, pieces) := readChunk max_buffer_size before.1 data
    (reading, before.2 ++ pieces)) (⟨[], false⟩, [])

def stream_chunks_handler (max_buffer_size : Option Int) (chunks : List Bytes) : List Bytes :=
  match max_buffer_size with
  | none => chunks
  | some size =>
    if size ≤ 0 then chunks
    else
      let (reading, pieces) := readChunks size.toNat chunks
      if !reading.buffer.isEmpty && !reading.skip_mode then
        pieces ++ [reading.buffer ++ [newline]]
      else pieces

def streamLines (stream : Bytes) : List Bytes :=
  Lines.complete newline stream ++
    if Lines.rest newline stream = [] then [] else [Lines.rest newline stream]

/-- Each line is a piece, and the pieces are the stream, with a newline after an
unterminated last line. -/
structure Transparent (stream : Bytes) (pieces : List Bytes) : Prop where
  one_line : pieces = (streamLines stream).map (fun line => line ++ [newline])
  unbroken : ∀ line ∈ streamLines stream, newline ∉ line
  whole : pieces.flatten =
    stream ++ if Lines.rest newline stream = [] then [] else [newline]

section Short

variable {max_buffer_size : Nat}

theorem yieldLines_short {lines : List Bytes}
    (short : ∀ line ∈ lines, line.length ≤ max_buffer_size) (pieces : List Bytes) :
    lines.foldl (yieldLine max_buffer_size) (false, pieces) =
      (false, pieces ++ lines.map (fun line => line ++ [newline])) := by
  induction lines generalizing pieces with
  | nil => simp
  | cons line later ih =>
    have fits : ¬ max_buffer_size < line.length := Nat.not_lt.mpr (short line (List.mem_cons_self ..))
    have round : yieldLine max_buffer_size (false, pieces) line =
        (false, pieces ++ [line ++ [newline]]) := by
      simp [yieldLine, fits]
    rw [List.foldl_cons, round, ih (fun other member => short other (List.mem_cons_of_mem _ member))]
    simp

/-- What has been read of a stream whose lines are short: the buffer holds what follows the
last newline, and every line before it has been yielded. -/
def Kept (stream : Bytes) (before : Reading × List Bytes) : Prop :=
  before.1 = ⟨Lines.rest newline stream, false⟩ ∧
    before.2 = (Lines.complete newline stream).map (fun line => line ++ [newline])

theorem readChunk_short {stream data : Bytes}
    (short : ∀ line ∈ (stream ++ data).splitOn newline, line.length ≤ max_buffer_size) :
    readChunk max_buffer_size ⟨Lines.rest newline stream, false⟩ data =
      (⟨Lines.rest newline (stream ++ data), false⟩,
        (Lines.complete newline (Lines.rest newline stream ++ data)).map
          (fun line => line ++ [newline])) := by
  by_cases empty : data = []
  · subst empty
    have nothing := (Lines.parts_of_absent (@Lines.not_mem_rest _ _ newline stream)).1
    simp [readChunk, nothing]
  have filled : data.isEmpty = false := by simpa using empty
  rw [Lines.splitOn_append] at short
  have inside : ∀ line ∈ (Lines.rest newline stream ++ data).splitOn newline,
      line.length ≤ max_buffer_size :=
    fun line member => short line (List.mem_append_right _ member)
  rw [Lines.splitOn_eq] at inside
  have yielded := @yieldLines_short max_buffer_size
    (Lines.complete newline (Lines.rest newline stream ++ data))
    (fun line member => inside line (List.mem_append_left _ member)) []
  have fits : ¬ max_buffer_size < (Lines.rest newline (Lines.rest newline stream ++ data)).length :=
    Nat.not_lt.mpr (inside _ (List.mem_append_right _ (List.mem_singleton.mpr rfl)))
  rw [Lines.complete] at yielded
  rw [Lines.rest] at fits
  simp only [readChunk, filled, Bool.false_eq_true, if_false, Bool.false_and, yielded, List.nil_append,
    Bool.not_false, Bool.true_and, decide_eq_true_eq, fits]
  rw [Lines.rest_append]
  rfl

theorem readChunks_short (chunks : List Bytes)
    (short : ∀ line ∈ chunks.flatten.splitOn newline, line.length ≤ max_buffer_size) :
    Kept chunks.flatten (readChunks max_buffer_size chunks) := by
  induction chunks using List.reverseRecOn with
  | nil => exact ⟨rfl, rfl⟩
  | append_singleton chunks data ih =>
    have split : (chunks ++ [data]).flatten = chunks.flatten ++ data := by simp
    rw [split] at short ⊢
    obtain ⟨reading, pieces⟩ := ih (Lines.short_before short)
    rw [readChunks] at reading pieces
    rw [readChunks, List.foldl_append, List.foldl_cons, List.foldl_nil]
    generalize chunks.foldl _ _ = before at reading pieces ⊢
    constructor
    · rw [reading, readChunk_short short]
    · rw [reading, readChunk_short short, pieces,
        @Lines.complete_append _ _ newline chunks.flatten data, List.map_append]

end Short

/-- However a stream is cut into chunks, lines that are not too long go through one by one. -/
theorem stream_chunks_handler_transparent (max_buffer_size : Int) (chunks : List Bytes)
    (bounded : 0 < max_buffer_size)
    (short : ∀ line ∈ chunks.flatten.splitOn newline, (line.length : Int) ≤ max_buffer_size) :
    Transparent chunks.flatten (stream_chunks_handler (some max_buffer_size) chunks) := by
  have kept := @readChunks_short max_buffer_size.toNat chunks (fun line member => by
    have fits := short line member
    omega)
  obtain ⟨reading, pieces⟩ := kept
  have made : stream_chunks_handler (some max_buffer_size) chunks =
      (streamLines chunks.flatten).map (fun line => line ++ [newline]) := by
    simp only [stream_chunks_handler, Int.not_le.mpr bounded, if_false, reading, pieces, streamLines]
    by_cases ended : Lines.rest newline chunks.flatten = []
    · simp [ended]
    · simp [ended]
  refine ⟨made, ?_, ?_⟩
  · intro line member
    refine @Lines.not_mem_of_mem_splitOn _ _ newline chunks.flatten line ?_
    rw [Lines.splitOn_eq]
    rw [streamLines, List.mem_append] at member
    rcases member with member | last
    · exact List.mem_append_left _ member
    · split at last
      · cases last
      · exact List.mem_append_right _ last
  · have whole := @Lines.flatten_complete _ _ newline chunks.flatten
    rw [made, streamLines, List.map_append, List.flatten_append]
    by_cases ended : Lines.rest newline chunks.flatten = []
    · rw [ended, List.append_nil] at whole
      simpa [ended] using whole
    · simp only [ended, if_false, List.map_singleton, List.flatten_singleton]
      rw [← List.append_assoc, whole]

/-- Three chunks of a stream whose second line is cut, and whose last has no newline. -/
theorem three_chunks_transparent :
    Transparent [97, 10, 98, 99, 10, 100]
      (stream_chunks_handler (some 2) [[97, 10, 98], [99], [10, 100]]) :=
  stream_chunks_handler_transparent 2 [[97, 10, 98], [99], [10, 100]] (by decide) (by decide)

end OpenWebui.Utils
