import OpenWebui.Utils.StreamChunks

/-! `stream_chunks_handler` on a stream with lines that are too long: when it puts the empty data in the
place of each of them and hands on the others. -/

namespace OpenWebui.Utils

def expectedPiece (max_buffer_size : Nat) (line : Bytes) : Bytes :=
  if max_buffer_size < line.length then emptyData else line ++ [newline]

def arriveChunk (max_buffer_size : Nat) (before : List Bytes × Bytes) (data : Bytes) :
    List Bytes × Bytes :=
  let rest := Lines.rest newline (before.2 ++ data)
  (before.1 ++ Lines.complete newline (before.2 ++ data),
    if max_buffer_size < rest.length then [] else rest)

def arrived (max_buffer_size : Nat) (chunks : List Bytes) : List Bytes × Bytes :=
  chunks.foldl (arriveChunk max_buffer_size) ([], [])

def arrivals (max_buffer_size : Nat) (chunks : List Bytes) : List (Bytes × Bytes) :=
  (Lines.complete newline chunks.flatten).zip (arrived max_buffer_size chunks).1

/-- From the first line on that is too long, too much of each line arrives; nothing follows the last
newline then, and nothing that is too long does otherwise. -/
structure OversizedLast (max_buffer_size : Nat) (chunks : List Bytes) : Prop where
  itself : ∀ arrival ∈ arrivals max_buffer_size chunks, max_buffer_size < arrival.1.length →
    max_buffer_size < arrival.2.length
  later : (arrivals max_buffer_size chunks).Pairwise fun before after =>
    max_buffer_size < before.1.length → max_buffer_size < after.2.length
  short : (Lines.rest newline chunks.flatten).length ≤ max_buffer_size
  ended : (∃ arrival ∈ arrivals max_buffer_size chunks, max_buffer_size < arrival.1.length) →
    Lines.rest newline chunks.flatten = []

section Judged

variable {max_buffer_size : Nat}

def judged (max_buffer_size : Nat) (skip_mode : Bool) : List (Bytes × Bytes) → Bool × List Bytes
  | [] => (skip_mode, [])
  | arrival :: later =>
    let (mode, piece) :=
      yieldLine max_buffer_size (skip_mode || decide (arrival.2 ≠ arrival.1), []) arrival.2
    let (last, pieces) := judged max_buffer_size mode later
    (last, piece ++ pieces)

theorem judged_append (skip_mode : Bool) (first second : List (Bytes × Bytes)) :
    judged max_buffer_size skip_mode (first ++ second) =
      ((judged max_buffer_size (judged max_buffer_size skip_mode first).1 second).1,
        (judged max_buffer_size skip_mode first).2 ++
          (judged max_buffer_size (judged max_buffer_size skip_mode first).1 second).2) := by
  induction first generalizing skip_mode with
  | nil => rfl
  | cons arrival later ih => simp [judged, ih]

theorem yieldLine_pieces (skip_mode : Bool) (pieces : List Bytes) (line : Bytes) :
    yieldLine max_buffer_size (skip_mode, pieces) line =
      ((yieldLine max_buffer_size (skip_mode, []) line).1,
        pieces ++ (yieldLine max_buffer_size (skip_mode, []) line).2) := by
  unfold yieldLine
  dsimp only
  split <;> split <;> rfl

theorem zip_same (lines : List Bytes) : lines.zip lines = lines.map fun line => (line, line) := by
  induction lines with
  | nil => rfl
  | cons line later ih => simp [ih]

theorem foldl_yieldLine (skip_mode : Bool) (pieces : List Bytes) (lines : List Bytes) :
    lines.foldl (yieldLine max_buffer_size) (skip_mode, pieces) =
      ((judged max_buffer_size skip_mode (lines.zip lines)).1,
        pieces ++ (judged max_buffer_size skip_mode (lines.zip lines)).2) := by
  induction lines generalizing skip_mode pieces with
  | nil => simp [judged]
  | cons line later ih =>
    rw [List.foldl_cons, yieldLine_pieces, ih]
    simp [judged]

@[simp] theorem length_judged (skip_mode : Bool) (lines : List (Bytes × Bytes)) :
    (judged max_buffer_size skip_mode lines).2.length = lines.length := by
  induction lines generalizing skip_mode with
  | nil => rfl
  | cons arrival later ih =>
    have one : ∀ mode, (yieldLine max_buffer_size (mode, []) arrival.2).2.length = 1 := by
      intro mode
      unfold yieldLine
      dsimp only
      split <;> split <;> rfl
    simp [judged, ih, one]
    omega

/-- What can have been thrown away of a line. -/
def Cut (max_buffer_size : Nat) (arrival : Bytes × Bytes) : Prop :=
  newline ∉ arrival.2 ∧ (arrival.2 ≠ arrival.1 → max_buffer_size < arrival.1.length)

theorem Cut.long {arrival : Bytes × Bytes} (cut : Cut max_buffer_size arrival)
    (much : max_buffer_size < arrival.2.length) : max_buffer_size < arrival.1.length := by
  by_cases whole : arrival.2 = arrival.1
  · exact whole ▸ much
  · exact cut.2 whole

theorem ne_expectedPiece {seen : Bytes} (unbroken : newline ∉ seen) (line : Bytes) :
    seen ≠ expectedPiece max_buffer_size line := by
  rintro rfl
  unfold expectedPiece at unbroken
  split at unbroken
  · exact unbroken (by decide +kernel)
  · simp at unbroken

theorem judged_skipping {arrivals : List (Bytes × Bytes)}
    (cut : ∀ arrival ∈ arrivals, Cut max_buffer_size arrival) :
    ((judged max_buffer_size true arrivals).2 =
        arrivals.map (fun arrival => expectedPiece max_buffer_size arrival.1) ↔
      ∀ arrival ∈ arrivals, max_buffer_size < arrival.2.length) ∧
    ((∀ arrival ∈ arrivals, max_buffer_size < arrival.2.length) →
      (judged max_buffer_size true arrivals).1 = true) := by
  induction arrivals with
  | nil => simp [judged]
  | cons arrival later ih =>
    obtain ⟨first, rest⟩ := List.forall_mem_cons.mp cut
    obtain ⟨right, mode⟩ := ih rest
    rw [List.forall_mem_cons]
    by_cases much : max_buffer_size < arrival.2.length
    · have expected : expectedPiece max_buffer_size arrival.1 = emptyData := if_pos (first.long much)
      simp only [judged, yieldLine, Bool.true_or, if_true, if_neg (Nat.not_le.mpr much), List.nil_append,
        List.singleton_append, List.map_cons, expected, List.cons.injEq, true_and, much]
      exact ⟨right, mode⟩
    · refine ⟨iff_of_false ?_ fun all => much all.1, fun all => absurd all.1 much⟩
      simp only [judged, yieldLine, Bool.true_or, if_true, if_pos (Nat.le_of_not_lt much),
        List.nil_append, List.singleton_append, List.map_cons, List.cons.injEq, not_and]
      exact fun same => absurd same (ne_expectedPiece first.1 arrival.1)

theorem judged_reading {arrivals : List (Bytes × Bytes)}
    (cut : ∀ arrival ∈ arrivals, Cut max_buffer_size arrival) :
    ((judged max_buffer_size false arrivals).2 =
        arrivals.map (fun arrival => expectedPiece max_buffer_size arrival.1) ↔
      (∀ arrival ∈ arrivals, max_buffer_size < arrival.1.length →
        max_buffer_size < arrival.2.length) ∧
      arrivals.Pairwise fun before after =>
        max_buffer_size < before.1.length → max_buffer_size < after.2.length) ∧
    ((judged max_buffer_size false arrivals).2 =
        arrivals.map (fun arrival => expectedPiece max_buffer_size arrival.1) →
      (judged max_buffer_size false arrivals).1 =
        decide (∃ arrival ∈ arrivals, max_buffer_size < arrival.1.length)) := by
  induction arrivals with
  | nil => simp [judged]
  | cons arrival later ih =>
    obtain ⟨first, rest⟩ := List.forall_mem_cons.mp cut
    obtain ⟨right, mode⟩ := ih rest
    obtain ⟨skipping, skip_mode⟩ := judged_skipping rest
    by_cases long : max_buffer_size < arrival.1.length
    · by_cases much : max_buffer_size < arrival.2.length
      · have round : ∀ mode, yieldLine max_buffer_size (mode, []) arrival.2 = (true, [emptyData]) := by
          intro mode
          cases mode <;> simp [yieldLine, Nat.not_le.mpr much, much]
        have expected : expectedPiece max_buffer_size arrival.1 = emptyData := if_pos long
        simp only [judged, round, List.singleton_append, List.map_cons, expected, List.cons.injEq,
          true_and]
        refine ⟨skipping.trans ⟨fun all => ?_, fun both other member => ?_⟩, fun right => ?_⟩
        · exact ⟨List.forall_mem_cons.mpr ⟨fun _ => much, fun other member _ => all other member⟩,
            List.pairwise_cons.mpr ⟨fun other member _ => all other member,
              List.pairwise_of_forall_mem_list fun _ _ other member _ => all other member⟩⟩
        · exact (List.pairwise_cons.mp both.2).1 other member long
        · rw [skip_mode (skipping.mp right)]
          exact (decide_eq_true ⟨arrival, List.mem_cons_self, long⟩).symm
      · have cut : arrival.2 ≠ arrival.1 := fun whole => much (whole ▸ long)
        have wrong : (judged max_buffer_size false (arrival :: later)).2 ≠
            (arrival :: later).map fun arrival => expectedPiece max_buffer_size arrival.1 := by
          simp only [judged, yieldLine, Bool.false_or, decide_eq_true cut, if_true,
            if_pos (Nat.le_of_not_lt much), List.nil_append, List.singleton_append, List.map_cons, ne_eq,
            List.cons.injEq, not_and]
          exact fun same => absurd same (ne_expectedPiece first.1 arrival.1)
        exact ⟨iff_of_false wrong fun all => much (all.1 arrival List.mem_cons_self long),
          fun right => absurd right wrong⟩
    · have whole : arrival.2 = arrival.1 := by
        by_contra cut
        exact long (first.2 cut)
      have expected : expectedPiece max_buffer_size arrival.1 = arrival.1 ++ [newline] := if_neg long
      simp only [judged, yieldLine, whole, ne_eq, not_true_eq_false, decide_false, Bool.or_false,
        Bool.false_eq_true, if_false, List.nil_append, List.singleton_append, List.map_cons,
        expected, List.cons.injEq, true_and, List.forall_mem_cons, List.pairwise_cons, long,
        false_imp_iff, implies_true, List.exists_mem_cons_iff, false_or]
      exact ⟨right, mode⟩

end Judged

/-- What the rounds have come to, by the lines and their arrival and what of the last line is left. -/
structure Judging (max_buffer_size : Nat) (arrivals : List (Bytes × Bytes)) (rest left : Bytes)
    (reading : Reading) (pieces : List Bytes) : Prop where
  pieces : pieces = (judged max_buffer_size false arrivals).2
  skip_mode : reading.skip_mode =
    ((judged max_buffer_size false arrivals).1 || decide (left ≠ rest))
  buffer : (if reading.skip_mode && decide (max_buffer_size < reading.buffer.length) then []
    else reading.buffer) = left
  cut : ∀ arrival ∈ arrivals, Cut max_buffer_size arrival
  unbroken : newline ∉ rest
  rest : Cut max_buffer_size (rest, left)
  short : left.length ≤ max_buffer_size

theorem parts_of_first {first later : Bytes} (unbroken : newline ∉ first) :
    Lines.complete newline (first ++ newline :: later) = first :: Lines.complete newline later ∧
      Lines.rest newline (first ++ newline :: later) = Lines.rest newline later := by
  have split := List.splitOn_append_cons_self_of_not_mem unbroken later
  have later_parts := @Lines.splitOn_eq _ _ newline later
  constructor
  · rw [Lines.complete, split, later_parts, ← List.cons_append, List.dropLast_concat]
  · rw [Lines.rest, split, later_parts, ← List.cons_append, List.getLastD_concat]

variable {max_buffer_size : Nat}

theorem chunk_lines (skip_mode : Bool) {line seen : Bytes} (data : Bytes) (unbroken : newline ∉ line)
    (cut : Cut max_buffer_size (line, seen)) :
    let added := (Lines.complete newline (line ++ data)).zip (Lines.complete newline (seen ++ data))
    (Lines.complete newline (seen ++ data)).foldl (yieldLine max_buffer_size)
        (skip_mode || decide (seen ≠ line), []) =
      ((judged max_buffer_size skip_mode added).1 ||
        decide (Lines.rest newline (seen ++ data) ≠ Lines.rest newline (line ++ data)),
        (judged max_buffer_size skip_mode added).2) ∧
    Cut max_buffer_size (Lines.rest newline (line ++ data), Lines.rest newline (seen ++ data)) ∧
    (∀ arrival ∈ added, Cut max_buffer_size arrival) ∧
    (Lines.complete newline (line ++ data)).length = (Lines.complete newline (seen ++ data)).length := by
  by_cases present : newline ∈ data
  · obtain ⟨before, after, rfl, absent⟩ := List.eq_append_cons_of_mem present
    have split : ∀ {first : Bytes}, newline ∉ first →
        Lines.complete newline (first ++ (before ++ newline :: after)) =
            (first ++ before) :: Lines.complete newline after ∧
          Lines.rest newline (first ++ (before ++ newline :: after)) = Lines.rest newline after := by
      intro first unbroken
      rw [← List.append_assoc]
      refine parts_of_first fun member => ?_
      exact (List.mem_append.mp member).elim unbroken absent
    obtain ⟨line_parts, line_rest⟩ := split unbroken
    obtain ⟨seen_parts, seen_rest⟩ := split cut.1
    rw [line_parts, line_rest, seen_parts, seen_rest]
    refine ⟨?_, ⟨Lines.not_mem_rest after, fun differ => absurd rfl differ⟩, ?_, by simp⟩
    · rw [List.foldl_cons, yieldLine_pieces, foldl_yieldLine]
      simp [judged]
    · intro arrival member
      rw [List.zip_cons_cons, List.mem_cons] at member
      rcases member with rfl | member
      · refine ⟨fun inside => (List.mem_append.mp inside).elim cut.1 absent, fun differ => ?_⟩
        have long : max_buffer_size < line.length :=
          cut.2 fun equal => differ (congrArg (· ++ before) equal)
        simp only [List.length_append]
        omega
      · rw [zip_same, List.mem_map] at member
        obtain ⟨line, inside, rfl⟩ := member
        refine ⟨@Lines.not_mem_of_mem_splitOn _ _ newline after line ?_, fun differ => absurd rfl differ⟩
        rw [Lines.splitOn_eq after]
        exact List.mem_append_left _ inside
  · have fresh : ∀ {first : Bytes}, newline ∉ first → newline ∉ first ++ data := fun unbroken member =>
      (List.mem_append.mp member).elim unbroken present
    obtain ⟨line_parts, line_rest⟩ := Lines.parts_of_absent (fresh unbroken)
    obtain ⟨seen_parts, seen_rest⟩ := Lines.parts_of_absent (fresh cut.1)
    rw [line_parts, line_rest, seen_parts, seen_rest]
    refine ⟨by simp [judged], ⟨fresh cut.1, fun differ => ?_⟩, by simp, rfl⟩
    have long : max_buffer_size < line.length :=
      cut.2 fun equal => differ (congrArg (· ++ data) equal)
    simp only [List.length_append]
    omega

theorem chunk_end (skip_mode : Bool) {rest buffer : Bytes} (cut : Cut max_buffer_size (rest, buffer)) :
    let left := if max_buffer_size < buffer.length then [] else buffer
    let reading : Reading := if !(skip_mode || decide (buffer ≠ rest)) &&
        decide (max_buffer_size < buffer.length) then ⟨[], true⟩
      else ⟨buffer, skip_mode || decide (buffer ≠ rest)⟩
    reading.skip_mode = (skip_mode || decide (left ≠ rest)) ∧
      (if reading.skip_mode && decide (max_buffer_size < reading.buffer.length) then []
        else reading.buffer) = left ∧
      Cut max_buffer_size (rest, left) ∧ left.length ≤ max_buffer_size := by
  by_cases full : max_buffer_size < buffer.length
  · have long : max_buffer_size < rest.length := cut.long full
    have differ : ([] : Bytes) ≠ rest := by
      rintro rfl
      exact absurd long (Nat.not_lt_zero _)
    simp only [if_pos full, decide_eq_true differ, decide_eq_true full, Bool.and_true, Bool.or_true]
    generalize (skip_mode || decide (buffer ≠ rest)) = mode
    refine ⟨?_, ?_, ⟨List.not_mem_nil, fun _ => long⟩, Nat.zero_le _⟩
    · cases mode <;> rfl
    · cases mode <;> simp [full]
  · simp only [if_neg full, decide_eq_false full, Bool.and_false, Bool.false_eq_true, if_false]
    exact ⟨trivial, trivial, cut, Nat.le_of_not_lt full⟩

theorem judging_chunk {arrivals : List (Bytes × Bytes)} {rest left : Bytes} {reading : Reading}
    {pieces : List Bytes} (before : Judging max_buffer_size arrivals rest left reading pieces)
    (data : Bytes) :
    Judging max_buffer_size (arrivals ++
        (Lines.complete newline (rest ++ data)).zip (Lines.complete newline (left ++ data)))
      (Lines.rest newline (rest ++ data))
      (if max_buffer_size < (Lines.rest newline (left ++ data)).length then []
        else Lines.rest newline (left ++ data))
      (readChunk max_buffer_size reading data).1
      (pieces ++ (readChunk max_buffer_size reading data).2) := by
  by_cases empty : data = []
  · subst empty
    obtain ⟨no_line, all⟩ := Lines.parts_of_absent before.unbroken
    obtain ⟨-, kept⟩ := Lines.parts_of_absent before.rest.1
    dsimp only at kept
    rw [List.append_nil, List.append_nil, no_line, all, kept, if_neg (Nat.not_lt.mpr before.short)]
    simpa [readChunk] using before
  · have filled : data.isEmpty = false := by simpa using empty
    obtain ⟨lines_before, skip_before, buffer_before, cut, unbroken, rest_cut, short⟩ := before
    obtain ⟨folded, next, added, -⟩ := @chunk_lines max_buffer_size
      (judged max_buffer_size false arrivals).1 rest left data unbroken rest_cut
    rw [← skip_before] at folded
    generalize (Lines.complete newline (rest ++ data)).zip (Lines.complete newline (left ++ data)) = new
      at folded added ⊢
    obtain ⟨after, judged_after⟩ : ∃ after, after =
      judged max_buffer_size (judged max_buffer_size false arrivals).1 new := ⟨_, rfl⟩
    rw [← judged_after] at folded
    obtain ⟨skipping, buffer, left_cut, left_short⟩ := chunk_end after.1 next
    have round : readChunk max_buffer_size reading data =
        (if !(after.1 || decide (Lines.rest newline (left ++ data) ≠ Lines.rest newline (rest ++ data))) &&
            decide (max_buffer_size < (Lines.rest newline (left ++ data)).length) then ⟨[], true⟩
          else ⟨Lines.rest newline (left ++ data), after.1 ||
            decide (Lines.rest newline (left ++ data) ≠ Lines.rest newline (rest ++ data))⟩, after.2) := by
      rw [readChunk, filled]
      simp only [Bool.false_eq_true, if_false, buffer_before]
      rw [← Lines.complete, folded, ← Lines.rest]
      dsimp only
      split <;> rfl
    rw [round]
    refine ⟨?_, ?_, buffer, ?_, Lines.not_mem_rest _, left_cut, left_short⟩
    · rw [lines_before, judged_append, ← judged_after]
    · rw [skipping, judged_append, ← judged_after]
    · intro arrival member
      exact (List.mem_append.mp member).elim (cut arrival) (added arrival)

theorem judging (chunks : List Bytes) :
    Judging max_buffer_size (arrivals max_buffer_size chunks) (Lines.rest newline chunks.flatten)
        (arrived max_buffer_size chunks).2 (readChunks max_buffer_size chunks).1
        (readChunks max_buffer_size chunks).2 ∧
      (Lines.complete newline chunks.flatten).length = (arrived max_buffer_size chunks).1.length := by
  induction chunks using List.reverseRecOn with
  | nil => exact ⟨⟨rfl, rfl, rfl, by simp [arrivals, arrived], by simp [Lines.rest],
      by simp [Cut, arrived, Lines.rest], Nat.zero_le _⟩, rfl⟩
  | append_singleton chunks data ih =>
    obtain ⟨before, lengths⟩ := ih
    have stream : (chunks ++ [data]).flatten = chunks.flatten ++ data := by simp
    have next : arrived max_buffer_size (chunks ++ [data]) =
        arriveChunk max_buffer_size (arrived max_buffer_size chunks) data := by
      simp [arrived]
    have rounds : readChunks max_buffer_size (chunks ++ [data]) =
        ((readChunk max_buffer_size (readChunks max_buffer_size chunks).1 data).1,
          (readChunks max_buffer_size chunks).2 ++
            (readChunk max_buffer_size (readChunks max_buffer_size chunks).1 data).2) := by
      simp [readChunks]
    have step := judging_chunk before data
    obtain ⟨-, -, -, added⟩ := @chunk_lines max_buffer_size false _ _ data before.unbroken before.rest
    rw [rounds, stream, Lines.complete_append, Lines.rest_append, next, arrivals, stream,
      Lines.complete_append, next, arriveChunk, List.zip_append lengths]
    exact ⟨step, by rw [List.length_append, List.length_append, lengths, added]⟩

/-- The empty data stands for each line that is too long, and the others are handed on, exactly when the
lines that are too long come last and arrive so. -/
theorem stream_chunks_handler_oversized_iff {max_buffer_size : Int} (bounded : 0 < max_buffer_size)
    (chunks : List Bytes) :
    stream_chunks_handler (some max_buffer_size) chunks =
        (streamLines chunks.flatten).map (expectedPiece max_buffer_size.toNat) ↔
      OversizedLast max_buffer_size.toNat chunks := by
  obtain ⟨⟨pieces, skip_mode, buffer, cut, -, rest_cut, short⟩, lengths⟩ :=
    @judging max_buffer_size.toNat chunks
  obtain ⟨right, mode⟩ := judged_reading cut
  have lines : (Lines.complete newline chunks.flatten).map (expectedPiece max_buffer_size.toNat) =
      (arrivals max_buffer_size.toNat chunks).map fun arrival =>
        expectedPiece max_buffer_size.toNat arrival.1 := by
    have firsts : (arrivals max_buffer_size.toNat chunks).map Prod.fst =
        Lines.complete newline chunks.flatten := List.map_fst_zip lengths.le
    rw [← firsts, List.map_map]
    rfl
  have handled : stream_chunks_handler (some max_buffer_size) chunks =
      (judged max_buffer_size.toNat false (arrivals max_buffer_size.toNat chunks)).2 ++
        if !(readChunks max_buffer_size.toNat chunks).1.buffer.isEmpty &&
            !(readChunks max_buffer_size.toNat chunks).1.skip_mode then
          [(readChunks max_buffer_size.toNat chunks).1.buffer ++ [newline]]
        else [] := by
    simp only [stream_chunks_handler, Int.not_le.mpr bounded, if_false, ← pieces]
    split <;> simp
  rw [handled, streamLines, List.map_append, lines]
  generalize readChunks max_buffer_size.toNat chunks = before at skip_mode buffer ⊢
  obtain ⟨⟨kept, skipping⟩, whole_pieces⟩ := before
  dsimp only at skip_mode buffer ⊢
  constructor
  · intro same
    obtain ⟨judged_right, flushed⟩ := List.append_inj same (by simp)
    have skip_first := mode judged_right
    obtain ⟨itself, later⟩ := right.mp judged_right
    refine ⟨itself, later, ?_, fun long => ?_⟩
    · by_cases empty : Lines.rest newline chunks.flatten = []
      · simp [empty]
      · cases skipping with
        | true => simp [empty] at flushed
        | false =>
          obtain ⟨-, whole⟩ := Bool.or_eq_false_iff.mp skip_mode.symm
          rw [← of_not_not (of_decide_eq_false whole)]
          exact short
    · have skips : skipping = true := by
        rw [skip_mode, skip_first, decide_eq_true long, Bool.true_or]
      by_contra filled
      simp [skips, filled] at flushed
  · rintro ⟨itself, later, rest_short, ended⟩
    have judged_right := right.mpr ⟨itself, later⟩
    have skip_first := mode judged_right
    have whole : (arrived max_buffer_size.toNat chunks).2 = Lines.rest newline chunks.flatten := by
      by_contra differ
      exact absurd (rest_cut.2 differ) (Nat.not_lt.mpr rest_short)
    rw [judged_right]
    congr 1
    rw [whole, skip_first] at skip_mode
    simp only [ne_eq, not_true_eq_false, decide_false, Bool.or_false] at skip_mode
    by_cases empty : Lines.rest newline chunks.flatten = []
    · cases skipping with
      | true => simp [empty]
      | false =>
        have nothing : kept = [] := by simpa [whole, empty] using buffer
        simp [nothing, empty]
    · have fits : ¬ ∃ arrival ∈ arrivals max_buffer_size.toNat chunks,
          max_buffer_size.toNat < arrival.1.length := fun long => empty (ended long)
      rw [decide_eq_false fits] at skip_mode
      have all : kept = Lines.rest newline chunks.flatten := by
        simpa [skip_mode, whole] using buffer
      simp [skip_mode, all, empty, expectedPiece, Nat.not_lt.mpr rest_short]

/-- A line that is too long comes last, in two chunks. -/
theorem oversized_last_line :
    stream_chunks_handler (some 1) [[97, 10, 98], [99, 10]] =
        (streamLines [[97, 10, 98], [99, 10]].flatten).map (expectedPiece (1 : Int).toNat) ↔
      OversizedLast (1 : Int).toNat [[97, 10, 98], [99, 10]] :=
  stream_chunks_handler_oversized_iff (by decide) [[97, 10, 98], [99, 10]]

/-- The short line after one that is too long is handed on without its newline. -/
theorem line_after_oversized_fused :
    [98] ∈ streamLines [97, 97, 10, 98, 10, 99, 10] ∧
      [98, newline] ∉ stream_chunks_handler (some 1) [[97, 97, 10, 98, 10, 99, 10]] ∧
      stream_chunks_handler (some 1) [[97, 97, 10, 98, 10, 99, 10]] = [emptyData, [98], [99, newline]] := by
  decide +kernel

end OpenWebui.Utils
