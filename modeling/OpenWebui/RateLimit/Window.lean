import Mathlib.Tactic.Ring
import OpenWebui.RateLimit.Agreement

/-! How many calls on a key a limiter lets through within its window, at any place of the window. -/

namespace OpenWebui.RateLimit

def allowed (limiter : RateLimiter) (start : Int) (times : List Nat) (answers : List Answer) :
    List (Nat × Answer) :=
  (times.zip answers).filter fun call => decide (call.2 = .limited false ∧ start ≤ call.1 ∧
    (call.1 : Int) < start + limiter.window * second)

def callsAt (key : String) (times : List Nat) : List Event :=
  times.map fun time => (.is_limited key, time)

/-- In no window are more calls on a key let through than the limit. -/
def Guarantees (limiter : RateLimiter) (run : List Event → List Answer) : Prop :=
  ∀ key times, times.Pairwise (· ≤ ·) → ∀ start,
    ((allowed limiter start times (run (callsAt key times))).length : Int) ≤ limiter.limit

/-- When the guarantee holds: whole buckets make up the window, or no call is let through. -/
def Covers (limiter : RateLimiter) : Prop :=
  0 ≤ limiter.limit ∧ (limiter.window ≤ 0 ∨ limiter.enabled = true ∧
    (limiter.limit = 0 ∨ (limiter.bucket_size : Int) ∣ limiter.window))

section Counted

variable {limiter : RateLimiter} {same : String → String → Bool}

theorem countedAnswers_snoc (history later : List Event) (event : Event) :
    countedAnswers limiter same history (later ++ [event]) =
      countedAnswers limiter same history later ++
        [counted limiter same (history ++ later) event] := by
  induction later generalizing history with
  | nil => simp [countedAnswers]
  | cons first later ih => simp [countedAnswers, ih]

theorem length_countedAnswers (history later : List Event) :
    (countedAnswers limiter same history later).length = later.length := by
  induction later generalizing history with
  | nil => rfl
  | cons first later ih => simp [countedAnswers, ih]

theorem allowed_snoc (key : String) (start : Int) (times : List Nat) (time : Nat) :
    allowed limiter start (times ++ [time])
        (countedAnswers limiter same [] (callsAt key (times ++ [time]))) =
      allowed limiter start times (countedAnswers limiter same [] (callsAt key times)) ++
        allowed limiter start [time]
          [counted limiter same (callsAt key times) (.is_limited key, time)] := by
  have lengths : times.length = (countedAnswers limiter same [] (callsAt key times)).length := by
    rw [length_countedAnswers, callsAt, List.length_map]
  simp only [callsAt, List.map_append, List.map_cons, List.map_nil, countedAnswers_snoc] at lengths ⊢
  rw [allowed, List.zip_append lengths, List.filter_append]
  rfl

theorem length_allowed_le (start : Int) (times : List Nat) (answers : List Answer) :
    (allowed limiter start times answers).length ≤ (times.filter fun time : Nat =>
      decide (start ≤ (time : Int) ∧ (time : Int) < start + limiter.window * second)).length := by
  induction times generalizing answers with
  | nil => simp [allowed]
  | cons time times ih =>
    cases answers with
    | nil => simp [allowed]
    | cons answer answers =>
      have rest := ih answers
      simp only [allowed, List.zip_cons_cons, List.filter_cons] at rest ⊢
      by_cases inside : start ≤ (time : Int) ∧ (time : Int) < start + limiter.window * second
      · simp only [inside, and_self, and_true, decide_true, if_true, List.length_cons]
        split
        · simpa using rest
        · exact Nat.le_succ_of_le rest
      · simp only [inside, and_false, decide_false, Bool.false_eq_true, if_false]
        exact rest

theorem hits_callsAt {key : String} (known : same key key = true) (times : List Nat) (bucket : Int) :
    hits limiter same (callsAt key times) key bucket =
      (times.filter fun time => decide (bucket ≤ limiter.current_bucket time)).length := by
  rw [hits, callsAt, List.filter_map, List.length_map]
  congr 1
  exact List.filter_congr fun time _ => by simp [countsFrom, known]

theorem min_bucket_le (whole : (limiter.bucket_size : Int) ∣ limiter.window)
    (positive : 0 < limiter.window) {time earlier : Nat}
    (near : (time : Int) < earlier + limiter.window * second) :
    limiter.min_bucket time ≤ limiter.current_bucket earlier := by
  obtain ⟨count, buckets⟩ := whole
  have size : (0 : Int) < limiter.bucket_size := by exact_mod_cast limiter.positive
  have forward : 0 < count := by
    rw [buckets] at positive
    exact (mul_pos_iff_of_pos_left size).mp positive
  obtain ⟨count, rfl⟩ := Int.eq_ofNat_of_zero_le forward.le
  have kept : limiter.num_buckets = count := by
    rw [RateLimiter.num_buckets, buckets, Int.mul_ediv_cancel_left _ size.ne']
  have bound : time ≤ earlier + count * (second * limiter.bucket_size) := by
    rw [buckets] at near
    have cast : ((earlier + count * (second * limiter.bucket_size) : Nat) : Int) =
        earlier + limiter.bucket_size * count * second := by
      push_cast
      ring
    omega
  have divided : time / second / limiter.bucket_size ≤
      earlier / second / limiter.bucket_size + count := by
    rw [Nat.div_div_eq_div_mul, Nat.div_div_eq_div_mul,
      ← Nat.add_mul_div_right _ _ (Nat.mul_pos (by decide) limiter.positive)]
    exact Nat.div_le_div_right bound
  rw [RateLimiter.min_bucket, kept, RateLimiter.current_bucket, RateLimiter.current_bucket]
  omega

theorem length_allowed_le_limit {key : String} (known : same key key = true)
    (on : limiter.enabled = true) (positive : 0 < limiter.window) (room : 0 ≤ limiter.limit)
    (covered : limiter.limit = 0 ∨ (limiter.bucket_size : Int) ∣ limiter.window)
    {times : List Nat} (ordered : times.Pairwise (· ≤ ·)) (start : Int) :
    ((allowed limiter start times (countedAnswers limiter same [] (callsAt key times))).length : Int) ≤
      limiter.limit := by
  induction times using List.reverseRecOn with
  | nil => exact room
  | append_singleton times time ih =>
    obtain ⟨before, -, past⟩ := List.pairwise_append.mp ordered
    rw [allowed_snoc, List.length_append]
    by_cases through : counted limiter same (callsAt key times) (.is_limited key, time) =
        .limited false ∧ start ≤ (time : Int) ∧ (time : Int) < start + limiter.window * second
    · obtain ⟨answer, after, near⟩ := through
      have few : (hits limiter same (callsAt key (times ++ [time])) key
          (limiter.min_bucket time) : Int) ≤ limiter.limit := by
        simp only [counted, on, Bool.not_true, Bool.false_eq_true, if_false, Answer.limited.injEq] at answer
        rw [callsAt, List.map_append]
        exact not_lt.mp (of_decide_eq_false answer)
      have itself : limiter.min_bucket time ≤ limiter.current_bucket time := by
        have forward : 0 ≤ limiter.num_buckets := Int.ediv_nonneg positive.le (by omega)
        rw [RateLimiter.min_bucket]
        omega
      rw [hits_callsAt known, List.filter_append, List.length_append,
        List.filter_cons_of_pos (by simpa using itself), List.length_cons] at few
      have last : (allowed limiter start [time]
          [counted limiter same (callsAt key times) (.is_limited key, time)]).length ≤ 1 :=
        List.length_filter_le _ _
      rcases covered with none | whole
      · push_cast at few
        omega
      · have among : (times.filter fun earlier : Nat => decide (start ≤ (earlier : Int) ∧
            (earlier : Int) < start + limiter.window * second)).length ≤
            (times.filter fun earlier =>
              decide (limiter.min_bucket time ≤ limiter.current_bucket earlier)).length := by
          simp only [← List.countP_eq_length_filter]
          refine List.countP_mono_left fun earlier member inside => ?_
          simp only [decide_eq_true_eq] at inside ⊢
          exact min_bucket_le whole positive (by omega)
        have bound := @length_allowed_le limiter start times
          (countedAnswers limiter same [] (callsAt key times))
        push_cast at few
        omega
    · have nothing : allowed limiter start [time]
          [counted limiter same (callsAt key times) (.is_limited key, time)] = [] := by
        simpa [allowed] using through
      simpa [nothing] using ih before

theorem allowed_replicate {key : String} {time count : Nat} (start : Int)
    (inside : start ≤ (time : Int) ∧ (time : Int) < start + limiter.window * second)
    (few : limiter.enabled = true → (count : Int) ≤ limiter.limit) :
    (allowed limiter start (List.replicate count time) (countedAnswers limiter same []
      (callsAt key (List.replicate count time)))).length = count := by
  induction count with
  | zero => rfl
  | succ count ih =>
    have before := ih fun on => by have := few on; omega
    have through : counted limiter same (callsAt key (List.replicate count time))
        (.is_limited key, time) = .limited false := by
      cases on : limiter.enabled with
      | false => simp [counted, on, Call.turnedOff]
      | true =>
        have total : hits limiter same
            (callsAt key (List.replicate count time) ++ [(.is_limited key, time)]) key
            (limiter.min_bucket time) ≤ count + 1 := by
          refine (List.length_filter_le _ _).trans_eq ?_
          simp [callsAt]
        have room := few on
        simp only [counted, on, Bool.not_true, Bool.false_eq_true, if_false, Answer.limited.injEq,
          decide_eq_false_iff_not, not_lt]
        omega
    rw [List.replicate_succ', allowed_snoc, List.length_append, before, through]
    simp [allowed, inside]

/-- The last moment of a bucket, and the first of one so late that the bucket is forgotten. -/
theorem exists_leaking_times (positive : 0 < limiter.window)
    (broken : ¬ (limiter.bucket_size : Int) ∣ limiter.window) :
    ∃ first last : Nat, first ≤ last ∧ (last : Int) < first + limiter.window * second ∧
      limiter.current_bucket first = 0 ∧ limiter.min_bucket last = 1 ∧ 1 ≤ limiter.current_bucket last := by
  have size : (0 : Int) < limiter.bucket_size := by exact_mod_cast limiter.positive
  obtain ⟨back, buckets⟩ := Int.eq_ofNat_of_zero_le (Int.ediv_nonneg positive.le size.le)
  have bucket : 0 < limiter.bucket_size * second := Nat.mul_pos limiter.positive (by decide)
  have further : (limiter.bucket_size : Int) * back < limiter.window := by
    have rest : limiter.window % limiter.bucket_size ≠ 0 := fun none =>
      broken (Int.dvd_of_emod_eq_zero none)
    have split := Int.mul_ediv_add_emod limiter.window limiter.bucket_size
    have some := Int.emod_nonneg limiter.window size.ne'
    rw [buckets] at split
    omega
  obtain ⟨first, same_first⟩ : ∃ first, first = limiter.bucket_size * second - 1 := ⟨_, rfl⟩
  obtain ⟨last, same_last⟩ : ∃ last, last = (back + 1) * (limiter.bucket_size * second) := ⟨_, rfl⟩
  have late : limiter.current_bucket last = back + 1 := by
    rw [RateLimiter.current_bucket, Nat.div_div_eq_div_mul, Nat.mul_comm second, same_last,
      Nat.mul_div_cancel _ bucket]
    push_cast
    rfl
  refine ⟨first, last, ?_, ?_, ?_, ?_, by omega⟩
  · rw [same_first, same_last]
    have one : 1 * (limiter.bucket_size * second) ≤ (back + 1) * (limiter.bucket_size * second) :=
      Nat.mul_le_mul_right _ (by omega)
    omega
  · have seconds : ((limiter.bucket_size : Int) * back + 1) * second ≤ limiter.window * second :=
      Int.mul_le_mul_of_nonneg_right (by omega) (by omega)
    have whole : (last : Int) = limiter.bucket_size * back * second + limiter.bucket_size * second := by
      rw [same_last]
      push_cast
      ring
    have before : (first : Int) = limiter.bucket_size * second - 1 := by
      rw [same_first, Nat.cast_sub bucket]
      push_cast
      rfl
    have long : (1 : Int) < second := by decide
    rw [Int.add_mul, Int.one_mul] at seconds
    omega
  · rw [RateLimiter.current_bucket, Nat.div_div_eq_div_mul, Nat.mul_comm second,
      Nat.div_eq_of_lt (by omega)]
    rfl
  · rw [RateLimiter.min_bucket, late, RateLimiter.num_buckets, buckets]
    omega

theorem leaks {key : String} (known : same key key = true) (on : limiter.enabled = true)
    (positive : 0 < limiter.window) (room : 0 < limiter.limit)
    (broken : ¬ (limiter.bucket_size : Int) ∣ limiter.window) :
    ∃ times : List Nat, times.Pairwise (· ≤ ·) ∧ ∃ start : Int, limiter.limit <
      (allowed limiter start times (countedAnswers limiter same [] (callsAt key times))).length := by
  obtain ⟨count, limited⟩ := Int.eq_ofNat_of_zero_le room.le
  obtain ⟨first, last, order, near, early, oldest, late⟩ := exists_leaking_times positive broken
  have window : first < first + limiter.window * second := by
    have seconds : 0 < limiter.window * (second : Int) := Int.mul_pos positive (by decide)
    omega
  have through : counted limiter same (callsAt key (List.replicate count first))
      (.is_limited key, last) = .limited false := by
    have alone : hits limiter same
        (callsAt key (List.replicate count first ++ [last])) key 1 = 1 := by
      rw [hits_callsAt known, List.filter_append, List.filter_eq_nil_iff.mpr, List.nil_append,
        List.filter_cons_of_pos (by simpa using late)]
      · rfl
      · intro time member
        simp [List.eq_of_mem_replicate member, early]
    rw [callsAt, List.map_append] at alone
    simp only [counted, on, Bool.not_true, Bool.false_eq_true, if_false, Answer.limited.injEq,
      decide_eq_false_iff_not, not_lt, oldest, callsAt]
    rw [show [(Call.is_limited key, last)] = [last].map (fun time => (Call.is_limited key, time)) from
      rfl, alone]
    exact room
  refine ⟨List.replicate count first ++ [last], ?_, first, ?_⟩
  · refine List.pairwise_append.mpr ⟨List.pairwise_replicate.mpr (.inr le_rfl),
      List.pairwise_singleton _ _, fun time member other here => ?_⟩
    rw [List.eq_of_mem_replicate member, List.mem_singleton.mp here]
    exact order
  · have most := @allowed_replicate limiter same key first count first ⟨le_rfl, window⟩
      fun _ => limited.ge
    rw [allowed_snoc, List.length_append, most, through, limited]
    simp [allowed, near, order]

theorem guarantee_iff (known : ∀ key, same key key = true) :
    (∀ key times, times.Pairwise (· ≤ ·) → ∀ start, ((allowed limiter start times
      (countedAnswers limiter same [] (callsAt key times))).length : Int) ≤ limiter.limit) ↔
      Covers limiter := by
  constructor
  · intro guarantee
    have room : 0 ≤ limiter.limit := guarantee "" [] List.Pairwise.nil 0
    refine ⟨room, ?_⟩
    by_contra uncovered
    obtain ⟨positive, bare⟩ := not_or.mp uncovered
    have window : (0 : Int) < 0 + limiter.window * second := by
      rw [Int.zero_add]
      exact Int.mul_pos (by omega) (by decide)
    cases on : limiter.enabled with
    | false =>
      have most := @allowed_replicate limiter same "" 0 (limiter.limit.toNat + 1) 0 ⟨le_rfl, window⟩
        fun enabled => nomatch on.symm.trans enabled
      have bound := guarantee "" (List.replicate (limiter.limit.toNat + 1) 0)
        (List.pairwise_replicate.mpr (.inr le_rfl)) 0
      rw [most] at bound
      omega
    | true =>
      obtain ⟨some, broken⟩ := not_or.mp fun covered => bare ⟨on, covered⟩
      obtain ⟨times, ordered, start, more⟩ := leaks (known "") on (by omega) (by omega) broken
      exact absurd (guarantee "" times ordered start) (by omega)
  · rintro ⟨room, covers⟩ key times ordered start
    by_cases positive : 0 < limiter.window
    · obtain closed | ⟨on, covered⟩ := covers
      · exact absurd positive (by omega)
      · exact length_allowed_le_limit (known key) on positive room covered ordered start
    · have nothing : allowed limiter start times
          (countedAnswers limiter same [] (callsAt key times)) = [] := by
        refine List.filter_eq_nil_iff.mpr fun call _ inside => ?_
        obtain ⟨-, after, before⟩ := of_decide_eq_true inside
        have none : limiter.window * (second : Int) ≤ 0 :=
          Int.mul_nonpos_of_nonpos_of_nonneg (by omega) (by decide)
        omega
      simpa [nothing] using room

end Counted

/-- Either back end gives the guarantee for exactly the limiters whose window is made of whole buckets,
and for those that have nothing to let through. -/
theorem guarantees_iff (limiter : RateLimiter) (naming : Naming) :
    (Guarantees limiter (answers (answerMemory limiter) Dict.empty) ↔ Covers limiter) ∧
      (Guarantees limiter (answers (answerRedis limiter naming) Dict.empty) ↔ Covers limiter) := by
  have sorted : ∀ (key : String) (times : List Nat), times.Pairwise (· ≤ ·) →
      (callsAt key times).Pairwise (fun first second => first.2 ≤ second.2) :=
    fun key times ordered => List.pairwise_map.mpr ordered
  constructor
  · rw [← guarantee_iff fun key => show spelled key key = true by simp [spelled]]
    refine forall_congr' fun key => forall_congr' fun times => forall_congr' fun ordered => ?_
    rw [answersMemory_eq _ (sorted key times ordered)]
  · rw [← guarantee_iff fun key => show lowered naming key key = true by simp [lowered]]
    refine forall_congr' fun key => forall_congr' fun times => forall_congr' fun ordered => ?_
    rw [answersRedis_eq _ (sorted key times ordered)]

def minuteAndAHalf : RateLimiter := { oncePerMinute with window := 90 }

theorem minute_and_a_half_leaks :
    ¬ Guarantees minuteAndAHalf (answers (answerMemory minuteAndAHalf) Dict.empty) := by
  intro guarantee
  have bound := guarantee "ann@example.org" [59 * second, 120 * second]
    (by simp [second]) (59 * second)
  revert bound
  decide

end OpenWebui.RateLimit
