import Std.Data.String.ToInt
import OpenWebui.Base.Text
import OpenWebui.RateLimit.Counting

/-! Redis counts a key in lower case, the memory counts it as it is spelled: they agree on the
runs in which no other spelling of a key counts. -/

namespace OpenWebui.RateLimit

section Names

theorem colon_not_in_digits (n : Nat) : ':' ∉ n.repr.toList := by
  rw [Nat.toList_repr]
  intro colon
  have digit := Nat.isDigit_of_mem_toDigits (by decide) (by decide) colon
  exact absurd digit (by decide)

theorem colon_not_in_repr (n : Int) : ':' ∉ n.repr.toList := by
  cases n with
  | ofNat n => exact colon_not_in_digits n
  | negSucc n =>
    have digits : (Int.negSucc n).repr = "-" ++ (n + 1).repr := rfl
    rw [digits, String.toList_append]
    intro colon
    rcases List.mem_append.mp colon with sign | digits
    · simp at sign
    · exact colon_not_in_digits _ digits

theorem bucket_key_inj (naming : Naming) {first second : String} {bucket other : Int} :
    bucket_key naming first bucket = bucket_key naming second other ↔
      naming.lower first = naming.lower second ∧ bucket = other := by
  constructor
  · intro same
    have letters := congrArg String.toList same
    simp only [bucket_key, String.toList_append, List.append_assoc] at letters
    have tail := List.append_cancel_left (List.append_cancel_left letters)
    have parts (key : String) (index : Int) :
        Lines.complete ':' (key.toList ++ ':' :: index.repr.toList) = key.toList.splitOn ':' ∧
          Lines.rest ':' (key.toList ++ ':' :: index.repr.toList) = index.repr.toList :=
      Lines.parts_of_last (colon_not_in_repr index)
    have index : bucket.repr.toList = other.repr.toList := by
      have rests := congrArg (Lines.rest ':') tail
      exact (parts _ _).2.symm.trans (rests.trans (parts _ _).2)
    have equal : bucket = other := Int.repr_inj.mp (String.toList_inj.mp index)
    subst equal
    exact ⟨String.toList_inj.mp (List.append_cancel_right tail), rfl⟩
  · intro same
    rw [bucket_key, bucket_key, same.1, same.2]

end Names

variable {limiter : RateLimiter} {naming : Naming}

section Buckets

variable {same : String → String → Bool}

def exactly (limiter : RateLimiter) (same : String → String → Bool) (history : List Event)
    (key : String) (bucket : Int) : Nat :=
  (history.filter (fun event => countsFrom limiter same key bucket event &&
    decide (limiter.current_bucket event.2 = bucket))).length

theorem hits_eq_exactly_add (history : List Event) (key : String) (bucket : Int) :
    hits limiter same history key bucket =
      exactly limiter same history key bucket + hits limiter same history key (bucket + 1) := by
  induction history with
  | nil => rfl
  | cons event later ih =>
    obtain ⟨call, time⟩ := event
    cases call with
    | get_count other => simpa [hits, exactly, countsFrom] using ih
    | is_limited other =>
      simp only [hits, exactly, countsFrom, List.filter_cons] at ih ⊢
      by_cases counts : same other key = true
      · rcases lt_trichotomy bucket (limiter.current_bucket time) with before | here | after
        · have reached : bucket + 1 ≤ limiter.current_bucket time := before
          have past : ¬ limiter.current_bucket time = bucket := by omega
          simp [counts, before.le, reached, past, ih]
          omega
        · have past : ¬ bucket + 1 ≤ bucket := by omega
          simp [counts, ← here, ih]
          omega
        · have past : ¬ bucket ≤ limiter.current_bucket time := by omega
          have later_past : ¬ bucket + 1 ≤ limiter.current_bucket time := by omega
          simp [counts, past, later_past, ih]
      · simp [counts, ih]

theorem hits_after {history : List Event} {time : Nat} (past : ∀ event ∈ history, event.2 ≤ time)
    (key : String) {bucket : Int} (after : limiter.current_bucket time < bucket) :
    hits limiter same history key bucket = 0 := by
  rw [hits, List.length_eq_zero_iff, List.filter_eq_nil_iff]
  intro event member
  have before := @current_bucket_mono limiter _ _ (past event member)
  obtain ⟨call, at_time⟩ := event
  cases call with
  | get_count other => simp [countsFrom]
  | is_limited other =>
    have early : ¬ bucket ≤ limiter.current_bucket at_time := by
      dsimp only at before
      omega
    simp [countsFrom, early]

theorem sum_exactly {history : List Event} {time : Nat}
    (past : ∀ event ∈ history, event.2 ≤ time) (key : String) (count : Nat) :
    ((List.range count).map (fun i =>
        exactly limiter same history key (limiter.current_bucket time - (i : Nat)))).sum =
      hits limiter same history key (limiter.current_bucket time - count + 1) := by
  induction count with
  | zero =>
    have after : limiter.current_bucket time <
        limiter.current_bucket time - ((0 : Nat) : Int) + 1 := by omega
    rw [hits_after past key after]
    rfl
  | succ count ih =>
    rw [List.range_succ, List.map_append, List.sum_append, ih]
    have step := @hits_eq_exactly_add limiter same history key
      (limiter.current_bucket time - count)
    have index : limiter.current_bucket time - ((count + 1 : Nat) : Int) + 1 =
        limiter.current_bucket time - count := by omega
    rw [index, step, List.map_singleton, List.sum_singleton, Nat.add_comm]

theorem exactly_append_limited (history : List Event) (other key : String) (time : Nat)
    (bucket : Int) :
    exactly limiter same (history ++ [(.is_limited other, time)]) key bucket =
      exactly limiter same history key bucket +
        if same other key = true ∧ limiter.current_bucket time = bucket then 1 else 0 := by
  rw [exactly, List.filter_append, List.length_append, ← exactly]
  congr 1
  by_cases counts : same other key = true ∧ limiter.current_bucket time = bucket
  · obtain ⟨key_counts, rfl⟩ := counts
    simp [countsFrom, key_counts]
  · rw [if_neg counts, List.filter_cons_of_neg]
    · rfl
    · simp only [countsFrom, Bool.and_eq_true, decide_eq_true_eq]
      rintro ⟨⟨key_counts, _⟩, here⟩
      exact counts ⟨key_counts, here⟩

theorem exactly_append_count (history : List Event) (other key : String) (time : Nat)
    (bucket : Int) :
    exactly limiter same (history ++ [(.get_count other, time)]) key bucket =
      exactly limiter same history key bucket := by
  simp [exactly, List.filter_append, countsFrom]

end Buckets

section Redis

def lowered (naming : Naming) (first second : String) : Bool :=
  decide (naming.lower first = naming.lower second)

def keptUntil (limiter : RateLimiter) (bucket : Int) : Int :=
  (bucket * limiter.bucket_size + limiter.window + limiter.bucket_size) * second

/-- What is stored for a bucket with so many calls. -/
def Holds (limiter : RateLimiter) (bucket : Int) (calls : Nat) : Option Counter → Prop
  | none => calls = 0
  | some counter => counter.count = calls ∧
      ∃ expires, counter.expires = some expires ∧ keptUntil limiter bucket ≤ (expires : Nat)

def Stored (limiter : RateLimiter) (naming : Naming) (history : List Event) (redis : Redis) :
    Prop :=
  ∀ key bucket, Holds limiter bucket (exactly limiter (lowered naming) history key bucket)
    (Dict.get? redis (bucket_key naming key bucket))

theorem lt_keptUntil {time : Nat} {bucket : Int}
    (counts : limiter.current_bucket time ≤ bucket + limiter.num_buckets) :
    (time : Int) < keptUntil limiter bucket := by
  have within : time < (time / second / limiter.bucket_size + 1) * limiter.bucket_size * second := by
    have seconds := Nat.lt_div_mul_add (a := time) (b := second) (by decide)
    have slots := Nat.lt_div_mul_add (a := time / second) limiter.positive
    have whole : time / second + 1 ≤
        (time / second / limiter.bucket_size + 1) * limiter.bucket_size := by
      rw [Nat.add_mul, Nat.one_mul]
      exact slots
    calc
      time < (time / second + 1) * second := by rw [Nat.add_mul, Nat.one_mul]; exact seconds
      _ ≤ _ := Nat.mul_le_mul_right second whole
  have size : (0 : Int) < limiter.bucket_size := by exact_mod_cast limiter.positive
  have upTo : ((time / second / limiter.bucket_size : Nat) : Int) + 1 ≤
      bucket + limiter.num_buckets + 1 := by
    rw [RateLimiter.current_bucket] at counts
    omega
  have whole : limiter.num_buckets * limiter.bucket_size ≤ limiter.window :=
    Int.ediv_mul_le _ (ne_of_gt size)
  calc
    (time : Int) <
        (((time / second / limiter.bucket_size : Nat) : Int) + 1) * limiter.bucket_size * second := by
      exact_mod_cast within
    _ ≤ (bucket + limiter.num_buckets + 1) * limiter.bucket_size * second := by gcongr
    _ ≤ keptUntil limiter bucket := by
      rw [keptUntil]
      gcongr
      linarith

theorem Holds.live_eq {redis : Redis} {stored_key : String} {bucket : Int} {calls time : Nat}
    (holds : Holds limiter bucket calls (Dict.get? redis stored_key))
    (counts : limiter.current_bucket time ≤ bucket + limiter.num_buckets) :
    redis.live stored_key time = Dict.get? redis stored_key := by
  rw [Redis.live]
  cases stored : Dict.get? redis stored_key with
  | none => rfl
  | some counter =>
    rw [stored] at holds
    obtain ⟨_, expires, expiry, kept⟩ := holds
    have alive : time < expires := by exact_mod_cast (lt_keptUntil counts).trans_le kept
    simp [expiry, alive]

theorem Holds.getD_eq {bucket : Int} {calls : Nat} {stored : Option Counter}
    (holds : Holds limiter bucket calls stored) : (stored.map Counter.count).getD 0 = calls := by
  cases stored with
  | none => exact holds.symm
  | some counter => exact holds.1

variable {history : List Event} {redis : Redis}

theorem Stored.get_count_redis (stored : Stored limiter naming history redis) {time : Nat}
    (past : ∀ event ∈ history, event.2 ≤ time) (key : String) (forward : 0 ≤ limiter.num_buckets) :
    get_count_redis limiter naming redis key time =
      hits limiter (lowered naming) history key (limiter.min_bucket time) := by
  have oldest : limiter.current_bucket time - ((limiter.num_buckets + 1).toNat : Int) + 1 =
      limiter.min_bucket time := by
    rw [RateLimiter.min_bucket]
    omega
  rw [RateLimit.get_count_redis, sumCounts, Redis.mget, buckets, List.map_map, List.map_map,
    ← oldest, ← sum_exactly past key]
  congr 1
  refine List.map_congr_left (fun i member => ?_)
  have within := List.mem_range.mp member
  have holds := stored key (limiter.current_bucket time - (i : Nat))
  have counts : limiter.current_bucket time ≤
      limiter.current_bucket time - (i : Nat) + limiter.num_buckets := by omega
  dsimp only [Function.comp_apply]
  rw [holds.live_eq counts, holds.getD_eq]

theorem get_count_redis_of_past {time : Nat} (past : ∀ event ∈ history, event.2 ≤ time)
    (same : String → String → Bool) (key : String) (backward : limiter.num_buckets < 0) :
    get_count_redis limiter naming redis key time =
      hits limiter same history key (limiter.min_bucket time) := by
  have none : (limiter.num_buckets + 1).toNat = 0 := by omega
  have after : limiter.current_bucket time < limiter.min_bucket time := by
    rw [RateLimiter.min_bucket]
    omega
  rw [hits_after past key after, RateLimit.get_count_redis, buckets, none]
  rfl

theorem get?_expire_set (redis : Redis) (key query : String) {time : Nat} {ttl : Int}
    {counter : Counter} (lasting : ¬ ttl ≤ 0)
    (alive : counter.expires.all (fun until_ => decide (time < until_)) = true) :
    Dict.get? (Redis.expire (Dict.set redis key counter) key time ttl) query =
      if key = query then some { counter with expires := some (time + ttl.toNat * second) }
      else Dict.get? redis query := by
  have live : Redis.live (Dict.set redis key counter) key time = some counter := by
    rw [Redis.live, Dict.get?_set, if_pos rfl, Option.filter_some, if_pos alive]
  rw [Redis.expire, live]
  dsimp only
  rw [if_neg lasting, Dict.get?_set, Dict.get?_set]
  split <;> rfl

theorem Holds.is_limited_redis {key : String} {time calls : Nat}
    (holds : Holds limiter (limiter.current_bucket time) calls
      (Dict.get? redis (bucket_key naming key (limiter.current_bucket time))))
    (forward : 0 ≤ limiter.window) :
    ∃ counter, Holds limiter (limiter.current_bucket time) (calls + 1) (some counter) ∧
      ∀ query, Dict.get? (is_limited_redis limiter naming redis key time).1 query =
        if bucket_key naming key (limiter.current_bucket time) = query then some counter
        else Dict.get? redis query := by
  have size := limiter.positive
  have forward_buckets : 0 ≤ limiter.num_buckets := Int.ediv_nonneg forward (Int.natCast_nonneg _)
  have lasting : ¬ limiter.window + (limiter.bucket_size : Int) ≤ 0 := by omega
  have within : limiter.current_bucket time ≤
      limiter.current_bucket time + limiter.num_buckets := by omega
  have live : redis.live (bucket_key naming key (limiter.current_bucket time)) time =
      Dict.get? redis (bucket_key naming key (limiter.current_bucket time)) :=
    holds.live_eq within
  have fresh : keptUntil limiter (limiter.current_bucket time) ≤
      ((time + (limiter.window + limiter.bucket_size).toNat * second : Nat) : Int) := by
    have begun : (limiter.current_bucket time) * limiter.bucket_size * second ≤ (time : Int) := by
      rw [RateLimiter.current_bucket]
      exact_mod_cast (Nat.mul_le_mul_right second (Nat.div_mul_le_self _ _)).trans
        (Nat.div_mul_le_self _ _)
    have length : ((limiter.window + limiter.bucket_size).toNat : Int) =
        limiter.window + limiter.bucket_size := Int.toNat_of_nonneg (by omega)
    push_cast [length]
    rw [keptUntil]
    linarith
  rw [RateLimit.is_limited_redis, Redis.incr, live]
  cases stored : Dict.get? redis (bucket_key naming key (limiter.current_bucket time)) with
  | none =>
    rw [stored] at holds
    have zero : calls = 0 := holds
    refine ⟨⟨1, some (time + (limiter.window + limiter.bucket_size).toNat * second)⟩,
      ⟨by rw [zero], _, rfl, fresh⟩, fun query => ?_⟩
    exact get?_expire_set redis _ query lasting rfl
  | some counter =>
    rw [stored] at holds
    obtain ⟨count, expires, expiry, kept⟩ := holds
    by_cases first : counter.count + 1 = 1
    · have alive : time < expires := by exact_mod_cast (lt_keptUntil within).trans_le kept
      refine ⟨⟨counter.count + 1,
          some (time + (limiter.window + limiter.bucket_size).toNat * second)⟩,
        ⟨by rw [count], _, rfl, fresh⟩, fun query => ?_⟩
      dsimp only
      rw [if_pos first]
      exact get?_expire_set redis _ query lasting (by simp [expiry, alive])
    · refine ⟨{ counter with count := counter.count + 1 }, ⟨by rw [count], expires, expiry, kept⟩,
        fun query => ?_⟩
      dsimp only
      rw [if_neg first, Dict.get?_set]

theorem Stored.is_limited_redis (stored : Stored limiter naming history redis) (key : String)
    (time : Nat) (forward : 0 ≤ limiter.window) :
    Stored limiter naming (history ++ [(.is_limited key, time)])
      (is_limited_redis limiter naming redis key time).1 := by
  obtain ⟨counter, holds, others⟩ :=
    (stored key (limiter.current_bucket time)).is_limited_redis forward
  intro other bucket
  rw [others, exactly_append_limited]
  by_cases here : naming.lower key = naming.lower other ∧ limiter.current_bucket time = bucket
  · obtain ⟨same_key, rfl⟩ := here
    have counts : lowered naming key other = true := by simp [lowered, same_key]
    rw [if_pos ((bucket_key_inj naming).mpr ⟨same_key, rfl⟩), if_pos ⟨counts, rfl⟩]
    have same_calls : exactly limiter (lowered naming) history key (limiter.current_bucket time) =
        exactly limiter (lowered naming) history other (limiter.current_bucket time) := by
      simp only [exactly, countsFrom, lowered, same_key]
    exact same_calls ▸ holds
  · have apart : ¬ bucket_key naming key (limiter.current_bucket time) =
        bucket_key naming other bucket := fun same => here ((bucket_key_inj naming).mp same)
    have uncounted : ¬ (lowered naming key other = true ∧ limiter.current_bucket time = bucket) := by
      simpa [lowered] using here
    rw [if_neg apart, if_neg uncounted]
    exact stored other bucket

theorem answersRedis_eq (events : List Event)
    (ordered : events.Pairwise (fun first second => first.2 ≤ second.2)) :
    answers (answerRedis limiter naming) Dict.empty events =
      countedAnswers limiter (lowered naming) [] events := by
  refine answers_eq_counted
    (fun history redis => limiter.enabled = true → 0 ≤ limiter.window →
      Stored limiter naming history redis) ?_ events [] _ (fun _ _ _ _ => rfl) ordered
  intro history redis event stored later
  have size : (0 : Int) < limiter.bucket_size := by exact_mod_cast limiter.positive
  cases on : limiter.enabled with
  | false => simp [answerRedis, counted, on]
  | true =>
    obtain ⟨call, time⟩ := event
    have before := stored on
    simp only [answerRedis, counted, on, Bool.not_true, Bool.false_eq_true, if_false]
    cases call with
    | is_limited key =>
      have past : ∀ event ∈ history ++ [(Call.is_limited key, time)], event.2 ≤ time := by
        intro event member
        rcases List.mem_append.mp member with earlier | last
        · exact later event earlier
        · rw [List.mem_singleton.mp last]
      refine ⟨?_, fun _ forward => (before forward).is_limited_redis key time forward⟩
      have answer : (is_limited_redis limiter naming redis key time).2 =
          decide (limiter.limit < get_count_redis limiter naming
            (is_limited_redis limiter naming redis key time).1 key time) := rfl
      dsimp only
      rw [answer]
      rcases le_or_gt 0 limiter.window with forward | backward
      · have next := (before forward).is_limited_redis key time forward
        rw [next.get_count_redis past key (Int.ediv_nonneg forward size.le)]
      · rw [get_count_redis_of_past past _ key (Int.ediv_neg_of_neg_of_pos backward size)]
    | get_count key =>
      refine ⟨?_, fun _ forward other bucket => ?_⟩
      · dsimp only
        rcases le_or_gt 0 limiter.window with forward | backward
        · rw [(before forward).get_count_redis later key (Int.ediv_nonneg forward size.le)]
        · rw [get_count_redis_of_past later _ key (Int.ediv_neg_of_neg_of_pos backward size)]
      · rw [exactly_append_count]
        exact before forward other bucket

end Redis

section Spellings

def respelled (naming : Naming) (first second : String) : Bool :=
  lowered naming first second && !spelled first second

theorem hits_lowered (history : List Event) (key : String) (bucket : Int) :
    hits limiter (lowered naming) history key bucket =
      hits limiter spelled history key bucket +
        hits limiter (respelled naming) history key bucket := by
  induction history with
  | nil => rfl
  | cons event later ih =>
    obtain ⟨call, time⟩ := event
    simp only [hits, List.filter_cons] at ih ⊢
    cases call with
    | get_count other => simpa [countsFrom] using ih
    | is_limited other =>
      by_cases counts : bucket ≤ limiter.current_bucket time
      · by_cases same : other = key
        · subst same
          simp [countsFrom, counts, lowered, spelled, respelled, ih]
          omega
        · by_cases lower : naming.lower other = naming.lower key
          · simp [countsFrom, counts, lowered, spelled, respelled, same, lower, ih]
            omega
          · simp [countsFrom, counts, lowered, spelled, respelled, same, lower, ih]
      · simp [countsFrom, counts, ih]

/-- No other spelling of the key counts, or those that do leave the key on its side of the limit. -/
def Unaffected (limiter : RateLimiter) (naming : Naming) (earlier : List Event) (event : Event) :
    Prop :=
  match event.1 with
  | .get_count key =>
    hits limiter (respelled naming) earlier key (limiter.min_bucket event.2) = 0
  | .is_limited key =>
    let bucket := limiter.min_bucket event.2
    let own := hits limiter spelled (earlier ++ [event]) key bucket
    limiter.limit < own ∨ own + hits limiter (respelled naming) earlier key bucket ≤ limiter.limit

theorem counted_spelled_eq_iff (earlier : List Event) (event : Event) :
    counted limiter spelled earlier event = counted limiter (lowered naming) earlier event ↔
      (limiter.enabled = true → Unaffected limiter naming earlier event) := by
  obtain ⟨call, time⟩ := event
  cases on : limiter.enabled with
  | false => simp [counted, on]
  | true =>
    cases call with
    | get_count key =>
      simp only [counted, on, Unaffected, hits_lowered, Bool.not_true, Bool.false_eq_true, if_false,
        Answer.count.injEq, true_imp_iff]
      omega
    | is_limited key =>
      have last : hits limiter (respelled naming) (earlier ++ [(Call.is_limited key, time)]) key
          (limiter.min_bucket time) =
            hits limiter (respelled naming) earlier key (limiter.min_bucket time) := by
        rw [hits_append_limited, if_neg (by simp [respelled, spelled]), Nat.add_zero]
      simp only [counted, on, Unaffected, hits_lowered, last, Bool.not_true, Bool.false_eq_true,
        if_false, Answer.limited.injEq, true_imp_iff, decide_eq_decide]
      push_cast
      omega

theorem countedAnswers_eq_iff {first second : String → String → Bool} (history later : List Event) :
    countedAnswers limiter first history later = countedAnswers limiter second history later ↔
      ∀ earlier event rest, later = earlier ++ event :: rest →
        counted limiter first (history ++ earlier) event =
          counted limiter second (history ++ earlier) event := by
  induction later generalizing history with
  | nil => simp [countedAnswers]
  | cons event later ih =>
    rw [countedAnswers, countedAnswers, List.cons.injEq, ih]
    constructor
    · rintro ⟨head, tail⟩ earlier other rest split
      cases earlier with
      | nil =>
        rw [List.nil_append, List.cons.injEq] at split
        rw [List.append_nil, ← split.1]
        exact head
      | cons first_event earlier =>
        rw [List.cons_append, List.cons.injEq] at split
        have step := tail earlier other rest split.2
        rwa [List.append_assoc, split.1] at step
    · intro every
      refine ⟨by simpa using every [] event later rfl, fun earlier other rest split => ?_⟩
      have step := every (event :: earlier) other rest (by rw [split]; rfl)
      rwa [List.append_assoc]

end Spellings

variable (limiter naming)

/-- The back ends answer a run of calls alike just when the limiter is turned off, or no call is
affected by calls on other spellings of its key. -/
theorem back_ends_agree_iff (events : List Event)
    (ordered : events.Pairwise (fun first second => first.2 ≤ second.2)) :
    answers (answerMemory limiter) Dict.empty events =
        answers (answerRedis limiter naming) Dict.empty events ↔
      (limiter.enabled = true → ∀ earlier event later, events = earlier ++ event :: later →
        Unaffected limiter naming earlier event) := by
  rw [answersMemory_eq events ordered, answersRedis_eq events ordered, countedAnswers_eq_iff]
  simp only [List.nil_append, counted_spelled_eq_iff]
  exact ⟨fun every on earlier event later split => every earlier event later split on,
    fun every earlier event later split on => every on earlier event later split⟩

def oncePerMinute : RateLimiter :=
  { limit := 1, window := 60, bucket_size := 60, positive := by decide }

def twoSpellings : List Event :=
  [(.is_limited "Ann@example.org", 0), (.is_limited "ann@example.org", second)]

def asciiNaming : Naming := { REDIS_KEY_PREFIX := "open-webui", lower := String.toLower }

theorem two_spellings_affected :
    (answers (answerMemory oncePerMinute) Dict.empty twoSpellings =
        answers (answerRedis oncePerMinute asciiNaming) Dict.empty twoSpellings ↔
      (oncePerMinute.enabled = true → ∀ earlier event later,
        twoSpellings = earlier ++ event :: later →
          Unaffected oncePerMinute asciiNaming earlier event)) :=
  back_ends_agree_iff oncePerMinute asciiNaming twoSpellings (by decide)

/-- The memory lets the second call pass, Redis does not. -/
theorem fallback_loosens :
    ¬ ∀ (limiter : RateLimiter) (naming : Naming) (events : List Event),
      events.Pairwise (fun first second => first.2 ≤ second.2) →
        answers (answerMemory limiter) Dict.empty events =
          answers (answerRedis limiter naming) Dict.empty events := by
  intro agree
  have same := agree oncePerMinute asciiNaming twoSpellings (by decide)
  have memory : answers (answerMemory oncePerMinute) Dict.empty twoSpellings =
      [.limited false, .limited false] := by decide +kernel
  have redis : answers (answerRedis oncePerMinute asciiNaming) Dict.empty twoSpellings =
      [.limited false, .limited true] := by decide +kernel
  rw [memory, redis] at same
  simp at same

end OpenWebui.RateLimit
