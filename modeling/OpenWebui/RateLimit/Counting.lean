import Mathlib.Algebra.GroupWithZero.Nat
import Mathlib.Tactic.Linarith
import OpenWebui.Base.Dict

/-! `RateLimiter`: calls on a key are counted in buckets of time, in the memory of the process or in
Redis. Times are in nanoseconds. -/

namespace OpenWebui.RateLimit

structure RateLimiter where
  limit : Int
  window : Int
  bucket_size : Nat
  enabled : Bool := true
  /-- A limiter with a bucket size of zero cannot be made. -/
  positive : 0 < bucket_size

def second : Nat := 1000000000

namespace RateLimiter

variable (limiter : RateLimiter)

def num_buckets : Int := limiter.window / limiter.bucket_size

def current_bucket (time : Nat) : Int := (time / second / limiter.bucket_size : Nat)

def min_bucket (time : Nat) : Int := limiter.current_bucket time - limiter.num_buckets

end RateLimiter

/-- `_memory_store`: the counts of each key by bucket. -/
abbrev MemoryStore := Dict String (Dict Int Nat)

/-- `sum(store.values())`. -/
def total (store : Dict Int Nat) : Nat := (store.entries.map Prod.snd).sum

def dropExpired (store : Dict Int Nat) (min_bucket : Int) : Dict Int Nat :=
  (store.keys.filter (fun bucket => decide (bucket < min_bucket))).foldl Dict.erase store

section Memory

variable (limiter : RateLimiter) (memory : MemoryStore) (key : String) (time : Nat)

def is_limited_memory : MemoryStore × Bool :=
  let now_bucket := limiter.current_bucket time
  let store := (memory.get? key).getD Dict.empty
  let counted := store.set now_bucket ((store.get? now_bucket).getD 0 + 1)
  let left := dropExpired counted (limiter.min_bucket time)
  (memory.set key left, decide (limiter.limit < total left))

def get_count_memory : MemoryStore × Nat :=
  match memory.get? key with
  | none => (memory, 0)
  | some store =>
    let left := dropExpired store (limiter.min_bucket time)
    (memory.set key left, total left)

end Memory

structure Counter where
  count : Nat
  expires : Option Nat

abbrev Redis := Dict String Counter

namespace Redis

variable (redis : Redis) (key : String) (time : Nat)

def live : Option Counter :=
  (Dict.get? redis key).filter (fun counter =>
    counter.expires.all (fun until_ => decide (time < until_)))

def incr : Redis × Nat :=
  let counter := match live redis key time with
    | some counter => { counter with count := counter.count + 1 }
    | none => ⟨1, none⟩
  (Dict.set redis key counter, counter.count)

def expire (ttl : Int) : Redis :=
  match live redis key time with
  | none => redis
  | some counter =>
    if ttl ≤ 0 then Dict.erase redis key
    else Dict.set redis key { counter with expires := some (time + ttl.toNat * second) }

def mget (keys : List String) : List (Option Nat) :=
  keys.map (fun key => (live redis key time).map Counter.count)

end Redis

structure Naming where
  REDIS_KEY_PREFIX : String
  lower : String → String

def bucket_key (naming : Naming) (key : String) (bucket_index : Int) : String :=
  naming.REDIS_KEY_PREFIX ++ ":ratelimit:" ++ naming.lower key ++ ":" ++ bucket_index.repr

section Redis

variable (limiter : RateLimiter) (naming : Naming) (redis : Redis) (key : String) (time : Nat)

def buckets : List String :=
  (List.range (limiter.num_buckets + 1).toNat).map (fun i =>
    bucket_key naming key (limiter.current_bucket time - (i : Nat)))

/-- `sum(int(c) for c in counts if c)`. -/
def sumCounts (counts : List (Option Nat)) : Nat := (counts.map (fun count => count.getD 0)).sum

def is_limited_redis : Redis × Bool :=
  let bucket := bucket_key naming key (limiter.current_bucket time)
  let (counted, attempts) := redis.incr bucket time
  let kept := if attempts = 1 then
      Redis.expire counted bucket time (limiter.window + limiter.bucket_size)
    else counted
  let counts := Redis.mget kept time (buckets limiter naming key time)
  (kept, decide (limiter.limit < sumCounts counts))

def get_count_redis : Nat := sumCounts (redis.mget time (buckets limiter naming key time))

end Redis

inductive Call where
  | is_limited (key : String)
  | get_count (key : String)
  deriving DecidableEq

inductive Answer where
  | limited (over_limit : Bool)
  | count (used : Nat)
  deriving DecidableEq

abbrev Event := Call × Nat

def Call.turnedOff : Call → Answer
  | is_limited _ => .limited false
  | get_count _ => .count 0

def answerMemory (limiter : RateLimiter) (memory : MemoryStore) (event : Event) :
    MemoryStore × Answer :=
  if !limiter.enabled then (memory, event.1.turnedOff)
  else
    match event.1 with
    | .is_limited key =>
      let (memory, answer) := is_limited_memory limiter memory key event.2
      (memory, .limited answer)
    | .get_count key =>
      let (memory, answer) := get_count_memory limiter memory key event.2
      (memory, .count answer)

def answerRedis (limiter : RateLimiter) (naming : Naming) (redis : Redis) (event : Event) :
    Redis × Answer :=
  if !limiter.enabled then (redis, event.1.turnedOff)
  else
    match event.1 with
    | .is_limited key =>
      let (redis, answer) := is_limited_redis limiter naming redis key event.2
      (redis, .limited answer)
    | .get_count key => (redis, .count (get_count_redis limiter naming redis key event.2))

def answers {σ : Type} (step : σ → Event → σ × Answer) : σ → List Event → List Answer
  | _, [] => []
  | state, event :: later =>
    (step state event).2 :: answers step (step state event).1 later

end OpenWebui.RateLimit

namespace OpenWebui.RateLimit

variable (limiter : RateLimiter)

def countsFrom (same : String → String → Bool) (key : String) (bucket : Int) (event : Event) :
    Bool :=
  match event.1 with
  | .is_limited other => same other key && decide (bucket ≤ limiter.current_bucket event.2)
  | .get_count _ => false

def hits (same : String → String → Bool) (history : List Event) (key : String) (bucket : Int) :
    Nat :=
  (history.filter (countsFrom limiter same key bucket)).length

def counted (same : String → String → Bool) (history : List Event) (event : Event) : Answer :=
  if !limiter.enabled then event.1.turnedOff
  else
    match event.1 with
    | .is_limited key => .limited (decide (limiter.limit <
        hits limiter same (history ++ [event]) key (limiter.min_bucket event.2)))
    | .get_count key => .count (hits limiter same history key (limiter.min_bucket event.2))

def countedAnswers (same : String → String → Bool) : List Event → List Event → List Answer
  | _, [] => []
  | history, event :: later =>
    counted limiter same history event :: countedAnswers same (history ++ [event]) later

variable {limiter} {same : String → String → Bool}

theorem hits_append_limited (history : List Event) (other key : String) (time : Nat)
    (bucket : Int) :
    hits limiter same (history ++ [(.is_limited other, time)]) key bucket =
      hits limiter same history key bucket +
        if same other key = true ∧ bucket ≤ limiter.current_bucket time then 1 else 0 := by
  rw [hits, List.filter_append, List.length_append, ← hits]
  congr 1
  by_cases counts : same other key = true ∧ bucket ≤ limiter.current_bucket time
  · simp [countsFrom, counts]
  · rw [if_neg counts, List.filter_cons_of_neg (by simpa [countsFrom] using counts)]
    rfl

theorem hits_append_count (history : List Event) (other key : String) (time : Nat)
    (bucket : Int) :
    hits limiter same (history ++ [(.get_count other, time)]) key bucket =
      hits limiter same history key bucket := by
  simp [hits, List.filter_append, countsFrom]

/-- The event is not before anything in the history. -/
def Later (history : List Event) (event : Event) : Prop := ∀ earlier ∈ history, earlier.2 ≤ event.2

theorem answers_eq_counted {σ : Type} {step : σ → Event → σ × Answer}
    (holds : List Event → σ → Prop)
    (keeps : ∀ history state event, holds history state → Later history event →
      (step state event).2 = counted limiter same history event ∧
        holds (history ++ [event]) (step state event).1)
    (later : List Event) (history : List Event) (state : σ) (start : holds history state)
    (ordered : (history ++ later).Pairwise (fun first second => first.2 ≤ second.2)) :
    answers step state later = countedAnswers limiter same history later := by
  induction later generalizing history state with
  | nil => rfl
  | cons event later ih =>
    have after : Later history event := by
      intro earlier member
      exact (List.pairwise_append.mp ordered).2.2 earlier member event (List.mem_cons_self ..)
    obtain ⟨answer, next⟩ := keeps history state event start after
    rw [answers, countedAnswers, answer]
    congr 1
    exact ih (history ++ [event]) _ next (by simpa using ordered)

theorem current_bucket_mono {first second : Nat} (before : first ≤ second) :
    limiter.current_bucket first ≤ limiter.current_bucket second := by
  rw [RateLimiter.current_bucket, RateLimiter.current_bucket, Int.ofNat_le]
  exact Nat.div_le_div_right (Nat.div_le_div_right before)

theorem min_bucket_mono {first second : Nat} (before : first ≤ second) :
    limiter.min_bucket first ≤ limiter.min_bucket second :=
  Int.sub_le_sub_right (current_bucket_mono before) _

section Memory

def weight (store : Dict Int Nat) (bucket : Int) : Nat :=
  ((store.entries.filter (fun entry => decide (bucket ≤ entry.1))).map Prod.snd).sum

theorem weight_set (store : Dict Int Nat) (now_bucket bucket : Int) :
    weight (store.set now_bucket ((store.get? now_bucket).getD 0 + 1)) bucket =
      weight store bucket + if bucket ≤ now_bucket then 1 else 0 := by
  have entries : ∀ entries : List (Int × Nat),
      (((Assoc.set entries now_bucket ((entries.lookup now_bucket).getD 0 + 1)).filter
        (fun entry => decide (bucket ≤ entry.1))).map Prod.snd).sum =
        ((entries.filter (fun entry => decide (bucket ≤ entry.1))).map Prod.snd).sum +
          if bucket ≤ now_bucket then 1 else 0 := by
    intro entries
    induction entries with
    | nil => by_cases counts : bucket ≤ now_bucket <;> simp [Assoc.set, counts]
    | cons entry rest ih =>
      rw [Assoc.lookup_cons_self_or]
      by_cases here : entry.1 = now_bucket
      · subst here
        by_cases counts : bucket ≤ entry.1
        · simp [Assoc.set, counts]
          omega
        · simp [Assoc.set, counts]
      · rw [if_neg here, Assoc.set, if_neg here]
        by_cases counts : bucket ≤ entry.1
        · simp [counts, ih]
          omega
        · simp [counts, ih]
  exact entries store.entries

theorem entries_dropExpired (store : Dict Int Nat) (min_bucket : Int) :
    (dropExpired store min_bucket).entries =
      store.entries.filter (fun entry => decide (min_bucket ≤ entry.1)) := by
  have erased : ∀ (keys : List Int) (store : Dict Int Nat),
      (keys.foldl Dict.erase store).entries =
        store.entries.filter (fun entry => decide (entry.1 ∉ keys)) := by
    intro keys
    induction keys with
    | nil =>
      intro store
      exact (List.filter_eq_self.mpr (fun entry _ => by simp)).symm
    | cons key rest ih =>
      intro store
      have once : (store.erase key).entries =
          store.entries.filter (fun entry => decide (entry.1 ≠ key)) := rfl
      rw [List.foldl_cons, ih, once, List.filter_filter]
      refine List.filter_congr (fun entry _ => ?_)
      simp [Bool.and_comm]
  rw [dropExpired, erased]
  refine List.filter_congr (fun entry member => ?_)
  have stored : entry.1 ∈ store.keys := List.mem_map_of_mem member
  simp [stored]

theorem weight_dropExpired (store : Dict Int Nat) {min_bucket bucket : Int}
    (later : min_bucket ≤ bucket) :
    weight (dropExpired store min_bucket) bucket = weight store bucket := by
  rw [weight, weight, entries_dropExpired, List.filter_filter]
  congr 2
  refine List.filter_congr (fun entry _ => ?_)
  rw [← Bool.decide_and, decide_eq_decide]
  exact ⟨And.left, fun counts => ⟨counts, Int.le_trans later counts⟩⟩

theorem total_dropExpired (store : Dict Int Nat) (min_bucket : Int) :
    total (dropExpired store min_bucket) = weight store min_bucket := by
  rw [total, weight, entries_dropExpired]

def storeOf (memory : MemoryStore) (key : String) : Dict Int Nat :=
  (memory.get? key).getD Dict.empty

def spelled (first second : String) : Bool := decide (first = second)

/-- From any bucket on that can still count, the stores count the calls of the history. -/
def Remembers (limiter : RateLimiter) (history : List Event) (memory : MemoryStore) : Prop :=
  ∀ key bucket, (∀ earlier ∈ history, limiter.min_bucket earlier.2 ≤ bucket) →
    weight (storeOf memory key) bucket = hits limiter spelled history key bucket

theorem Remembers.empty : Remembers limiter [] Dict.empty := fun _ _ _ => rfl

theorem storeOf_set (memory : MemoryStore) (key query : String) (store : Dict Int Nat) :
    storeOf (memory.set key store) query = if key = query then store else storeOf memory query := by
  rw [storeOf, Dict.get?_set]
  split <;> rfl

theorem Remembers.is_limited_memory {history : List Event} {memory : MemoryStore}
    (remembers : Remembers limiter history memory) (key : String) {time : Nat}
    (later : Later history (.is_limited key, time)) :
    (is_limited_memory limiter memory key time).2 =
        decide (limiter.limit < hits limiter spelled (history ++ [(.is_limited key, time)]) key
          (limiter.min_bucket time)) ∧
      Remembers limiter (history ++ [(.is_limited key, time)])
        (is_limited_memory limiter memory key time).1 := by
  have added : ∀ bucket, limiter.min_bucket time ≤ bucket →
      weight ((storeOf memory key).set (limiter.current_bucket time)
          (((storeOf memory key).get? (limiter.current_bucket time)).getD 0 + 1)) bucket =
        hits limiter spelled (history ++ [(.is_limited key, time)]) key bucket := by
    intro bucket counts
    have before := remembers key bucket (fun earlier member =>
      Int.le_trans (min_bucket_mono (later earlier member)) counts)
    rw [weight_set, before, hits_append_limited]
    simp [spelled]
  constructor
  · rw [RateLimit.is_limited_memory]
    dsimp only
    rw [total_dropExpired]
    exact congrArg (fun used : Nat => decide (limiter.limit < (used : Int)))
      (added _ (Int.le_refl _))
  · intro other bucket counts
    have recent := counts _ (List.mem_append_right _ (List.mem_singleton.mpr rfl))
    rw [RateLimit.is_limited_memory]
    dsimp only
    rw [storeOf_set]
    by_cases this_key : key = other
    · subst this_key
      rw [if_pos rfl, weight_dropExpired _ recent]
      exact added bucket recent
    · rw [if_neg this_key, hits_append_limited]
      simp only [spelled, this_key, decide_false, Bool.false_eq_true, false_and, if_false,
        Nat.add_zero]
      exact remembers other bucket (fun earlier member =>
        counts earlier (List.mem_append_left _ member))

theorem Remembers.get_count_memory {history : List Event} {memory : MemoryStore}
    (remembers : Remembers limiter history memory) (key : String) {time : Nat}
    (later : Later history (.get_count key, time)) :
    (get_count_memory limiter memory key time).2 =
        hits limiter spelled history key (limiter.min_bucket time) ∧
      Remembers limiter (history ++ [(.get_count key, time)])
        (get_count_memory limiter memory key time).1 := by
  have now := remembers key (limiter.min_bucket time) (fun earlier member =>
    min_bucket_mono (later earlier member))
  rw [RateLimit.get_count_memory]
  cases found : memory.get? key with
  | none =>
    rw [storeOf, found] at now
    refine ⟨now, fun other bucket counts => ?_⟩
    rw [hits_append_count]
    exact remembers other bucket (fun earlier member =>
      counts earlier (List.mem_append_left _ member))
  | some store =>
    rw [storeOf, found, Option.getD_some] at now
    refine ⟨(total_dropExpired _ _).trans now, fun other bucket counts => ?_⟩
    have before := remembers other bucket (fun earlier member =>
      counts earlier (List.mem_append_left _ member))
    rw [hits_append_count, ← before, storeOf_set]
    by_cases this_key : key = other
    · subst this_key
      have recent := counts _ (List.mem_append_right _ (List.mem_singleton.mpr rfl))
      rw [if_pos rfl, weight_dropExpired _ recent, storeOf, found, Option.getD_some]
    · rw [if_neg this_key]

theorem answersMemory_eq (events : List Event)
    (ordered : events.Pairwise (fun first second => first.2 ≤ second.2)) :
    answers (answerMemory limiter) Dict.empty events =
      countedAnswers limiter spelled [] events := by
  refine answers_eq_counted
    (fun history memory => limiter.enabled = true → Remembers limiter history memory) ?_ events []
    _ (fun _ => Remembers.empty) ordered
  intro history memory event remembers later
  cases on : limiter.enabled with
  | false => simp [answerMemory, counted, on]
  | true =>
    obtain ⟨call, time⟩ := event
    have before := remembers on
    simp only [answerMemory, counted, on, Bool.not_true, Bool.false_eq_true, if_false]
    cases call with
    | is_limited key =>
      obtain ⟨answer, next⟩ := before.is_limited_memory key later
      exact ⟨congrArg Answer.limited answer, fun _ => next⟩
    | get_count key =>
      obtain ⟨answer, next⟩ := before.get_count_memory key later
      exact ⟨congrArg Answer.count answer, fun _ => next⟩

end Memory

end OpenWebui.RateLimit
