import OpenWebui.Automations.Anchoring

/-! How often an automation may run: the gap between the next two times of its rule against the
configured minimum, and the shortcut that skips it. -/

namespace OpenWebui.Automations

open Utils (pyInt)

def second : Int := 1000000

variable (dateutil : DateutilOf Occurrences)

/-- The clock of the caller is `now`. -/
def validate_rrule (s : String) (now : Int) : Except PyError Unit :=
  match parse_rule dateutil s now with
  | .error _ => .error .valueError
  | .ok rule => if rule.after now = none then .error .valueError else .ok ()

/-- `'COUNT=1' in s`. -/
def HasCount (s : String) : Prop := "COUNT=1".toList <:+: s.toList

instance (s : String) : Decidable (HasCount s) := inferInstanceAs (Decidable (_ <:+: _))

def rrule_interval_seconds (s : String) (now : Int) : Except PyError (Option Int) :=
  if HasCount s then .ok none
  else do
    let rule ← parse_rule dateutil s now
    match rule.after now with
    | none => return none
    | some first =>
      match rule.after first with
      | none => return none
      | some next => return some ((next - first) / second)

/-- A request that is refused with a status and a message, or that fails. -/
inductive Refusal where
  | http (status_code : Nat) (detail : String)
  | raises (error : PyError)

/-- `Config.get('automations.max_count')` and `Config.get('automations.min_interval')`. -/
structure Limits where
  max_count : Json
  min_interval : Json

def configured (setting : Json) : Except Refusal (Option Int) :=
  if setting.truthy then (pyInt setting).mapError .raises |>.map some else .ok none

def checkCount (max_count : Option Int) (count : Nat) : Except Refusal Unit :=
  match max_count with
  | none => .ok ()
  | some limit =>
    if 0 < limit ∧ limit ≤ count then
      .error (.http 403 ("Automation limit reached (" ++ toString limit ++ ")"))
    else .ok ()

def checkInterval (min_interval : Option Int) (s : String) (now : Int) : Except Refusal Unit :=
  match min_interval with
  | none => .ok ()
  | some limit =>
    if 0 < limit then do
      let interval ← (rrule_interval_seconds dateutil s now).mapError .raises
      if interval.any (fun interval => decide (interval < limit)) then
        .error (.http 400 ("Schedule too frequent. Minimum interval is " ++ toString limit ++
          " seconds."))
      else .ok ()
    else .ok ()

/-- `count` is the number of automations that the user has. -/
def check_automation_limits (limits : Limits) (role : String) (count : Nat) (s : String)
    (is_create : Bool) (now : Int) : Except Refusal Unit :=
  if role = "admin" then .ok ()
  else do
    if is_create then
      let max_count ← configured limits.max_count
      checkCount max_count count
    let min_interval ← configured limits.min_interval
    checkInterval dateutil min_interval s now

/-- The rule has two times after now. -/
def Twice (rule : Occurrences) (now : Int) : Prop :=
  ∃ first ∈ rule.times, ∃ later ∈ rule.times, now < first ∧ first < later

/-- The next two times after now. -/
structure NextTwo (rule : Occurrences) (now first later : Int) : Prop where
  soonest : IsLeast { time | time ∈ rule.times ∧ now < time } first
  following : IsLeast { time | time ∈ rule.times ∧ first < time } later

/-- The interval is the gap between the next two times, and nothing only where there are none. The
policy refuses each gap below the minimum to whoever is no admin. -/
structure Enforced (s : String) (now : Int) (rule : Occurrences) : Prop where
  interval : ∃ interval, rrule_interval_seconds dateutil s now = .ok interval ∧
    (interval = none → ¬ Twice rule now) ∧
    ∀ seconds ∈ interval, ∃ first later, NextTwo rule now first later ∧
      seconds = (later - first) / second
  refused : ∀ (limits : Limits) (role : String) (count : Nat) (is_create : Bool) (limit : Int)
    (first later : Int), role ≠ "admin" → limits.min_interval.truthy = true →
      pyInt limits.min_interval = .ok limit → 0 < limit → NextTwo rule now first later →
        later - first < limit * second →
          (check_automation_limits dateutil limits role count s is_create now).isOk = false

section Next

variable {dateutil} {rule : Occurrences} {now : Int}

theorem NextTwo.twice {first later : Int} (next : NextTwo rule now first later) : Twice rule now :=
  ⟨first, next.soonest.1.1, later, next.following.1.1, next.soonest.1.2, next.following.1.2⟩

theorem NextTwo.unique {first later other next : Int} (here : NextTwo rule now first later)
    (there : NextTwo rule now other next) : other = first ∧ next = later := by
  have same : other = first := there.soonest.unique here.soonest
  subst same
  exact ⟨rfl, there.following.unique here.following⟩

theorem nextTwo_of_after {first later : Int} (next : rule.after now = some first)
    (after_next : rule.after first = some later) : NextTwo rule now first later :=
  ⟨rule.next now first next, rule.next first later after_next⟩

theorem not_twice_of_none (none : rule.after now = none) : ¬ Twice rule now := by
  rintro ⟨first, member, _, _, after_now, _⟩
  exact absurd (rule.ended now none first member) (Int.not_le.mpr after_now)

theorem not_twice_of_last {first : Int} (next : rule.after now = some first)
    (last : rule.after first = none) : ¬ Twice rule now := by
  rintro ⟨other, member, later, later_member, after_now, apart⟩
  have least := (rule.next now first next).2 ⟨member, after_now⟩
  have over_ := rule.ended first last later later_member
  omega

end Next

variable {dateutil} {s : String} {now : Int} {rule : Occurrences}

theorem interval_of_parsed (parsed : parse_rule dateutil s now = .ok rule) (plain : ¬ HasCount s) :
    ∃ interval, rrule_interval_seconds dateutil s now = .ok interval ∧
      (interval = none → ¬ Twice rule now) ∧
      ∀ seconds ∈ interval, ∃ first later, NextTwo rule now first later ∧
        seconds = (later - first) / second := by
  rw [rrule_interval_seconds, if_neg plain, parsed]
  dsimp only [bind, Except.bind]
  cases next : rule.after now with
  | none => exact ⟨none, rfl, fun _ => not_twice_of_none next, nofun⟩
  | some first =>
    dsimp only
    cases after_next : rule.after first with
    | none => exact ⟨none, rfl, fun _ => not_twice_of_last next after_next, nofun⟩
    | some later =>
      refine ⟨_, rfl, nofun, fun seconds given => ?_⟩
      obtain rfl := Option.some.inj given
      exact ⟨first, later, nextTwo_of_after next after_next, rfl⟩

theorem refused_of_interval {seconds limit : Int} {limits : Limits} {role : String} {count : Nat}
    {is_create : Bool} (known : rrule_interval_seconds dateutil s now = .ok (some seconds))
    (plain : role ≠ "admin") (set : limits.min_interval.truthy = true)
    (read : pyInt limits.min_interval = .ok limit) (positive : 0 < limit) (below : seconds < limit) :
    (check_automation_limits dateutil limits role count s is_create now).isOk = false := by
  have refuses : (checkInterval dateutil (some limit) s now).isOk = false := by
    rw [checkInterval, if_pos positive, known]
    dsimp only [Except.mapError, bind, Except.bind, Option.any]
    rw [if_pos (decide_eq_true below)]
    rfl
  have setting : configured limits.min_interval = .ok (some limit) := by
    rw [configured, if_pos set, read]
    rfl
  have last : (configured limits.min_interval >>= fun min_interval =>
      checkInterval dateutil min_interval s now).isOk = false := by
    rw [setting]
    exact refuses
  rw [check_automation_limits, if_neg plain]
  cases is_create with
  | false => exact last
  | true =>
    cases limited : configured limits.max_count with
    | error refusal => rfl
    | ok max_count =>
      cases counted : checkCount max_count count with
      | error refusal => simp [bind, Except.bind, counted, Except.isOk, Except.toBool]
      | ok done => simpa [bind, Except.bind, counted] using last

/-- The policy holds for a rule exactly where its string does not have the shortcut's text, or the
rule has no two times left. -/
theorem interval_policy_iff (dateutil : DateutilOf Occurrences) (s : String) (now : Int)
    (rule : Occurrences) (parsed : parse_rule dateutil s now = .ok rule) :
    Enforced dateutil s now rule ↔ ¬ (HasCount s ∧ Twice rule now) := by
  constructor
  · rintro enforced ⟨counted, twice⟩
    obtain ⟨interval, done, none, _⟩ := enforced.interval
    rw [rrule_interval_seconds, if_pos counted] at done
    exact none (Except.ok.inj done).symm twice
  · intro kept
    by_cases counted : HasCount s
    · have over_ : ¬ Twice rule now := fun twice => kept ⟨counted, twice⟩
      refine ⟨⟨none, if_pos counted, fun _ => over_, nofun⟩, ?_⟩
      intro limits role count is_create limit first later _ _ _ _ next _
      exact absurd next.twice over_
    · have exact_ := interval_of_parsed parsed counted
      refine ⟨exact_, ?_⟩
      intro limits role count is_create limit first later plain set read positive next below
      obtain ⟨interval, done, none, some_⟩ := exact_
      cases interval with
      | none => exact absurd next.twice (none rfl)
      | some seconds =>
        obtain ⟨other, other_later, there, gap⟩ := some_ seconds rfl
        obtain ⟨rfl, rfl⟩ := there.unique next
        refine refused_of_interval done plain set read positive ?_
        rw [gap]
        exact Int.ediv_lt_of_lt_mul (by decide) below

section Samples

def tenTimes : String := "RRULE:FREQ=MINUTELY;COUNT=10"

def tenMinutes (anchor : Int) : Rule := ⟨anchor, 60 * second, some 10, none⟩

theorem tenMinutes_steps (anchor : Int) : 0 < (tenMinutes anchor).step := by
  have positive : 0 < 60 * second := by decide
  exact positive

def tenTimesUtil : DateutilOf Occurrences where
  upper := String.toUpper
  parse _ := .error .valueError
  rrulestr text start :=
    match start with
    | none => .error .valueError
    | some anchor =>
      if text = tenTimes then .ok ((tenMinutes anchor).occurrences (tenMinutes_steps anchor))
      else .error .valueError

theorem tenTimes_parsed : parse_rule tenTimesUtil tenTimes 0 =
    .ok ((tenMinutes 0).occurrences (tenMinutes_steps 0)) := by
  have no_exrule : ¬ "EXRULE".toList <:+: (tenTimesUtil.upper tenTimes).toList := by decide +kernel
  have one_rule : ¬ 1 < ((lines tenTimes).filter (startsUpper tenTimesUtil "RRULE:")).length := by
    decide +kernel
  have unit : unitOf (((parts tenTimesUtil tenTimes).get? "FREQ").getD "") = some 60000000 := by
    decide +kernel
  have step : interval tenTimesUtil tenTimes = .ok 1 := by decide +kernel
  have start : dtstart tenTimesUtil tenTimes = none := by decide +kernel
  have whole : withoutStart tenTimesUtil tenTimes = tenTimes := by decide +kernel
  rw [parse_rule]
  dsimp only
  rw [if_neg no_exrule, if_neg one_rule, unit]
  dsimp only
  rw [step]
  dsimp only [bind, Except.bind]
  rw [if_neg (by decide), start, whole]
  rfl

theorem tenTimes_policy_iff :
    Enforced tenTimesUtil tenTimes 0 ((tenMinutes 0).occurrences (tenMinutes_steps 0)) ↔
      ¬ (HasCount tenTimes ∧ Twice ((tenMinutes 0).occurrences (tenMinutes_steps 0)) 0) :=
  interval_policy_iff tenTimesUtil tenTimes 0 _ tenTimes_parsed

/-- A rule with a count that only begins with one escapes the policy. -/
theorem count_ten_escapes :
    ¬ ∀ (dateutil : DateutilOf Occurrences) (s : String) (now : Int) (rule : Occurrences),
      validate_rrule dateutil s now = .ok () → parse_rule dateutil s now = .ok rule →
        Enforced dateutil s now rule := by
  intro always
  have accepted : validate_rrule tenTimesUtil tenTimes 0 = .ok () := by
    have left : (tenMinutes 0).after 0 ≠ none := by decide +kernel
    rw [validate_rrule, tenTimes_parsed]
    exact if_neg left
  obtain ⟨interval, done, over_, _⟩ :=
    (always tenTimesUtil tenTimes 0 _ accepted tenTimes_parsed).interval
  have counted : HasCount tenTimes := by decide +kernel
  rw [rrule_interval_seconds, if_pos counted] at done
  refine over_ (Except.ok.inj done).symm ⟨60 * second, ?_, 120 * second, ?_, by decide, by decide⟩
  · exact ⟨1, by decide +kernel, by decide⟩
  · exact ⟨2, by decide +kernel, by decide⟩

end Samples

end OpenWebui.Automations
