import Mathlib.Algebra.Ring.Divisibility.Basic
import Mathlib.Order.Bounds.Basic
import OpenWebui.Base.Dict
import OpenWebui.Base.Progression
import OpenWebui.Utils.Usage

/-! `_parse_rule`: how a recurrence string is made a rule, and the next time of a rule. Times are
microseconds from 2000-01-01 00:00 on a clock without a zone. -/

namespace OpenWebui.Automations

open Utils (readInt)

/-- A rule that dateutil makes: a start, a step, and where it ends. -/
structure Rule where
  dtstart : Int
  step : Int
  count : Option Nat
  until_ : Option Int

namespace Rule

variable (rule : Rule)

/-- The time of an index is one of the rule's. -/
def Goes (k : Nat) : Prop :=
  (∀ count, rule.count = some count → k < count) ∧
    ∀ last, rule.until_ = some last → Progression.point rule.dtstart rule.step k ≤ last

instance (k : Nat) : Decidable (rule.Goes k) :=
  decidable_of_iff ((rule.count.all (fun count => decide (k < count))) = true ∧
      (rule.until_.all (fun last =>
        decide (Progression.point rule.dtstart rule.step k ≤ last))) = true)
    (by simp [Goes, Option.all_eq_true])

def times : Set Int := { time | ∃ k, rule.Goes k ∧ time = Progression.point rule.dtstart rule.step k }

/-- `rule.after(now)`. -/
def after (now : Int) : Option Int :=
  let k := Progression.passed rule.dtstart rule.step now
  if rule.Goes k then some (Progression.point rule.dtstart rule.step k) else none

variable {rule} {now : Int}

theorem Goes.before (positive : 0 < rule.step) {i j : Nat} (goes : rule.Goes j) (earlier : i ≤ j) :
    rule.Goes i := by
  constructor
  · intro count limit
    have below := goes.1 count limit
    omega
  · intro last limit
    exact (Progression.point_le_point positive earlier).trans (goes.2 last limit)

theorem after_of_goes (goes : rule.Goes (Progression.passed rule.dtstart rule.step now)) :
    rule.after now = some (Progression.point rule.dtstart rule.step
      (Progression.passed rule.dtstart rule.step now)) := if_pos goes

theorem after_of_ended (ended : ¬ rule.Goes (Progression.passed rule.dtstart rule.step now)) :
    rule.after now = none := if_neg ended

theorem after_eq_some (positive : 0 < rule.step) {time : Int} (next : rule.after now = some time) :
    IsLeast { time | time ∈ rule.times ∧ now < time } time := by
  rw [after] at next
  split at next
  · rename_i goes
    obtain rfl := Option.some.inj next
    refine ⟨⟨⟨_, goes, rfl⟩, (Progression.lt_point_iff positive).mpr (Nat.le_refl _)⟩, ?_⟩
    rintro other ⟨⟨k, _, rfl⟩, later⟩
    exact Progression.point_le_point positive ((Progression.lt_point_iff positive).mp later)
  · cases next

theorem after_eq_none (positive : 0 < rule.step) (none : rule.after now = none) :
    ∀ time ∈ rule.times, time ≤ now := by
  rw [after] at none
  split at none
  · cases none
  · rename_i over_
    rintro time ⟨k, goes, rfl⟩
    by_contra later
    have index := (Progression.lt_point_iff positive).mp (Int.not_le.mp later)
    exact over_ (goes.before positive index)

end Rule

/-- A rule of any kind: its times, and the next one after a time. -/
structure Occurrences where
  times : Set Int
  after : Int → Option Int
  next : ∀ now time, after now = some time → IsLeast { time | time ∈ times ∧ now < time } time
  ended : ∀ now, after now = none → ∀ time ∈ times, time ≤ now

def Rule.occurrences (rule : Rule) (positive : 0 < rule.step) : Occurrences where
  times := rule.times
  after := rule.after
  next _ _ := Rule.after_eq_some positive
  ended _ := Rule.after_eq_none positive

/-- The parts of dateutil, and of the interpreter, that are called, where a rule is an `R`. -/
structure DateutilOf (R : Type) where
  upper : String → String
  /-- `date_parser.parse(text, ignoretz=True)`. -/
  parse : String → Except PyError Int
  /-- `rrulestr(text, dtstart=dtstart, ignoretz=True)`. -/
  rrulestr : String → Option Int → Except PyError R

abbrev Dateutil := DateutilOf Rule

section Parsing

def isLineEnd (char : Char) : Bool :=
  let code := char.toNat
  decide (0xa ≤ code ∧ code ≤ 0xd) || decide (0x1c ≤ code ∧ code ≤ 0x1e) || decide (code = 0x85) ||
    decide (code = 0x2028) || decide (code = 0x2029)

/-- `s.splitlines()`, where a carriage return and a newline end one line. -/
def splitlines : List Char → List (List Char)
  | [] => []
  | '\r' :: '\n' :: rest => [] :: splitlines rest
  | char :: rest =>
    if isLineEnd char then [] :: splitlines rest
    else
      match splitlines rest with
      | [] => [[char]]
      | line :: later => (char :: line) :: later

/-- `text.split(separator, 1)`, when the separator is in the text. -/
def splitOnce (separator : Char) (text : List Char) : Option (List Char × List Char) :=
  if separator ∈ text then
    some (text.takeWhile (· != separator), (text.dropWhile (· != separator)).tail)
  else none

/-- `text.rsplit(separator, 1)[-1]`. -/
def afterLast (separator : Char) (text : List Char) : List Char :=
  (text.reverse.takeWhile (· != separator)).reverse

variable {R : Type} (dateutil : DateutilOf R) (s : String)

/-- `line.upper().startswith(head)`. -/
def startsUpper (head : String) (line : List Char) : Bool :=
  head.toList.isPrefixOf (dateutil.upper (String.ofList line)).toList

def lines : List (List Char) := splitlines s.toList

/-- `raw`: the rule, without its name. -/
def raw : List Char :=
  let rrule_line := ((lines s).find? (startsUpper dateutil "RRULE:")).getD s.toList
  if startsUpper dateutil "RRULE:" rrule_line then
    ((splitOnce ':' rrule_line).map Prod.snd).getD []
  else rrule_line

/-- `parts`: the values of the rule by their names. -/
def parts : Dict String String :=
  ((raw dateutil s).splitOn ';').foldl (fun found part =>
    match splitOnce '=' part with
    | some (key, value) => found.set (dateutil.upper (String.ofList key)) (String.ofList value)
    | none => found) Dict.empty

/-- `dtstart`: what the rule says of its start. -/
def dtstart : Option String :=
  ((lines s).find? (startsUpper dateutil "DTSTART")).map
    (fun line => String.ofList (afterLast ':' line))

/-- `rule`: the lines without the start. -/
def withoutStart : String :=
  let left := (lines s).filter (fun line => !startsUpper dateutil "DTSTART" line)
  let joined := List.intercalate ['\n'] left
  if joined.isEmpty then s else String.ofList joined

/-- `int(parts.get('INTERVAL', '1'))`. -/
def interval : Except PyError Int :=
  match readInt (((parts dateutil s).get? "INTERVAL").getD "1") with
  | some interval => .ok interval
  | none => .error .valueError

def unitOf (freq : String) : Option Int :=
  if freq = "SECONDLY" then some 1000000
  else if freq = "MINUTELY" then some 60000000
  else if freq = "HOURLY" then some 3600000000
  else none

end Parsing

def epoch : Int := 0

/-- `emitted`: about how many times the rule has had. -/
def emitted (parts : Dict String String) (anchor start step : Int) : Int :=
  let elapsed := if start < anchor then (anchor - start) / step else 0
  let times (key : String) : Int :=
    ((parts.get? key).map (fun value => ((value.toList.splitOn ',').length : Int))).getD 1
  elapsed * times "BYMINUTE" * times "BYSECOND"

def parse_rule {R : Type} (dateutil : DateutilOf R) (s : String) (now : Int) : Except PyError R := do
  let rule_count := ((lines s).filter (startsUpper dateutil "RRULE:")).length
  if "EXRULE".toList <:+: (dateutil.upper s).toList then .error .valueError
  else if 1 < rule_count then .error .valueError
  else
    let parts := parts dateutil s
    match unitOf ((parts.get? "FREQ").getD "") with
    | none => dateutil.rrulestr s none
    | some unit =>
      let interval ← interval dateutil s
      if interval < 1 then .error .valueError
      else
        let step := interval * unit
        let anchored := dateutil.rrulestr (withoutStart dateutil s)
          (some (epoch + ((now - epoch) / step) * step))
        match dtstart dateutil s with
        | none => anchored
        | some text =>
          if text.isEmpty then anchored
          else
            let start ← dateutil.parse text
            if emitted parts now start step ≤ 100000 then dateutil.rrulestr s none
            else anchored

end OpenWebui.Automations

namespace OpenWebui.Automations

/-- What a recurrence string stands for: a start, a step, and perhaps an end. -/
structure Schedule where
  start : Int
  step : Int
  count : Option Nat
  until_ : Option Int

def Schedule.rule (schedule : Schedule) (start : Int) : Rule :=
  ⟨start, schedule.step, schedule.count, schedule.until_⟩

/-- The string has a start and a sub-daily frequency, and dateutil makes of it, and of its rule
with another start, the times that it stands for. -/
structure Says (dateutil : Dateutil) (s : String) (schedule : Schedule) : Prop where
  no_exrule : ¬ "EXRULE".toList <:+: (dateutil.upper s).toList
  one_rule : ((lines s).filter (startsUpper dateutil "RRULE:")).length ≤ 1
  step : ∃ unit times, unitOf (((parts dateutil s).get? "FREQ").getD "") = some unit ∧
    interval dateutil s = .ok times ∧ 1 ≤ times ∧ schedule.step = times * unit
  every_minute : (parts dateutil s).get? "BYMINUTE" = none
  every_second : (parts dateutil s).get? "BYSECOND" = none
  starts : ∃ text, dtstart dateutil s = some text ∧ text.isEmpty = false ∧
    dateutil.parse text = .ok schedule.start
  plain : dateutil.rrulestr s none = .ok (schedule.rule schedule.start)
  anchored : ∀ anchor, dateutil.rrulestr (withoutStart dateutil s) (some anchor) =
    .ok (schedule.rule anchor)

variable {dateutil : Dateutil} {s : String} {schedule : Schedule}

theorem unitOf_pos {freq : String} {unit : Int} (known : unitOf freq = some unit) : 0 < unit := by
  rw [unitOf] at known
  split at known
  · obtain rfl := Option.some.inj known
    decide
  · split at known
    · obtain rfl := Option.some.inj known
      decide
    · split at known
      · obtain rfl := Option.some.inj known
        decide
      · cases known

theorem Says.step_pos (meaning : Says dateutil s schedule) : 0 < schedule.step := by
  obtain ⟨unit, times, known, _, positive, same⟩ := meaning.step
  rw [same]
  exact Int.mul_pos (by omega) (unitOf_pos known)

def Schedule.elapsed (schedule : Schedule) (now : Int) : Int :=
  if schedule.start < now then (now - schedule.start) / schedule.step else 0

theorem Says.parse_rule_eq (meaning : Says dateutil s schedule) (now : Int) :
    parse_rule dateutil s now = .ok (schedule.rule
      (if schedule.elapsed now ≤ 100000 then schedule.start
        else epoch + ((now - epoch) / schedule.step) * schedule.step)) := by
  obtain ⟨unit, times, known, read, positive, same⟩ := meaning.step
  obtain ⟨text, found, filled, parsed⟩ := meaning.starts
  have several : ¬ 1 < ((lines s).filter (startsUpper dateutil "RRULE:")).length :=
    Nat.not_lt.mpr meaning.one_rule
  have whole : ¬ times < 1 := by omega
  have steps : emitted (parts dateutil s) now schedule.start (times * unit) =
      schedule.elapsed now := by
    simp [emitted, Schedule.elapsed, meaning.every_minute, meaning.every_second, same]
  rw [parse_rule]
  dsimp only
  rw [if_neg meaning.no_exrule, if_neg several, known]
  dsimp only
  rw [read]
  dsimp only [bind, Except.bind]
  rw [if_neg whole, found]
  dsimp only
  rw [filled, parsed]
  dsimp only
  rw [if_neg Bool.false_ne_true, steps]
  split
  · exact meaning.plain
  · rw [meaning.anchored, same]

/-- The schedule has no time of this index, were it to be this one. -/
def Schedule.Over (schedule : Schedule) (k : Int) (time : Int) : Prop :=
  (∃ count, schedule.count = some count ∧ (count : Int) ≤ k) ∨
    ∃ last, schedule.until_ = some last ∧ last < time

def Schedule.boundary (schedule : Schedule) (now : Int) : Int :=
  epoch + ((now - epoch) / schedule.step + 1) * schedule.step

def Schedule.upcoming (schedule : Schedule) (now : Int) : Int :=
  schedule.start + (schedule.elapsed now + 1) * schedule.step

/-- Not many steps have passed, or the schedule is over and would be so on the clock, or it
is not over in either way and its start is a boundary of the clock. -/
def Schedule.Kept (schedule : Schedule) (now : Int) : Prop :=
  schedule.elapsed now ≤ 100000 ∨
    (schedule.Over (schedule.elapsed now + 1) (schedule.upcoming now) ∧
      schedule.Over 1 (schedule.boundary now)) ∨
    (¬ schedule.Over (schedule.elapsed now + 1) (schedule.upcoming now) ∧
      ¬ schedule.Over 1 (schedule.boundary now) ∧ schedule.step ∣ schedule.start - epoch)

theorem goes_iff {start now : Int} (begun : start ≤ now) (positive : 0 < schedule.step) :
    (schedule.rule start).Goes (Progression.passed start schedule.step now) ↔
      ¬ schedule.Over ((now - start) / schedule.step + 1)
        (start + ((now - start) / schedule.step + 1) * schedule.step) := by
  have natural : 0 ≤ (now - start) / schedule.step := Int.ediv_nonneg (by omega) positive.le
  have index : (Progression.passed start schedule.step now : Int) =
      (now - start) / schedule.step + 1 := Int.toNat_of_nonneg (by omega)
  rw [Rule.Goes, Schedule.Over, Progression.point]
  dsimp only [Schedule.rule]
  rw [index, not_or, not_exists, not_exists]
  constructor
  · rintro ⟨counts, lasts⟩
    refine ⟨fun count both => ?_, fun last both => ?_⟩
    · have below := counts count both.1
      omega
    · exact absurd (lasts last both.1) (Int.not_le.mpr both.2)
  · rintro ⟨counts, lasts⟩
    refine ⟨fun count limit => ?_, fun last limit => ?_⟩
    · by_contra reached
      exact counts count ⟨limit, by omega⟩
    · exact Int.not_lt.mp (fun passed => lasts last ⟨limit, passed⟩)

/-- The next time of the rule that is made of a string is that of the string itself, just when the
schedule is kept. -/
theorem parse_rule_after_iff (meaning : Says dateutil s schedule) (now : Int) :
    (parse_rule dateutil s now).map (Rule.after · now) =
        (dateutil.rrulestr s none).map (Rule.after · now) ↔ schedule.Kept now := by
  have positive := meaning.step_pos
  rw [meaning.parse_rule_eq, meaning.plain]
  simp only [Except.map, Except.ok.injEq]
  by_cases few : schedule.elapsed now ≤ 100000
  · rw [if_pos few]
    exact iff_of_true rfl (Or.inl few)
  · rw [if_neg few]
    -- Many steps have passed, so the schedule has begun, and the anchor is the last boundary.
    have begun : schedule.start < now := by
      by_contra later
      rw [Schedule.elapsed, if_neg later] at few
      omega
    have elapsed : schedule.elapsed now = (now - schedule.start) / schedule.step := if_pos begun
    have split := Int.mul_ediv_add_emod (now - epoch) schedule.step
    have left := Int.emod_nonneg (now - epoch) (ne_of_gt positive)
    have right := Int.emod_lt_of_pos (now - epoch) positive
    rw [Int.mul_comm] at split
    generalize anchor_is : epoch + ((now - epoch) / schedule.step) * schedule.step = anchor
    have before : anchor ≤ now := by omega
    have none_passed : (now - anchor) / schedule.step = 0 :=
      Int.ediv_eq_zero_of_lt (by omega) (by omega)
    have boundary : schedule.boundary now = anchor + (0 + 1) * schedule.step := by
      rw [Schedule.boundary, Int.add_mul]
      omega
    have plain_goes := goes_iff begun.le positive
    have anchored_goes := goes_iff before positive
    rw [← elapsed, ← Schedule.upcoming] at plain_goes
    rw [none_passed, ← boundary, Int.zero_add] at anchored_goes
    have in_phase : Progression.point anchor schedule.step
          (Progression.passed anchor schedule.step now) =
        Progression.point schedule.start schedule.step
          (Progression.passed schedule.start schedule.step now) ↔
        schedule.step ∣ schedule.start - epoch := by
      rw [eq_comm, Progression.next_eq_iff positive begun.le before]
      have apart : schedule.start - anchor =
          schedule.start - epoch - schedule.step * ((now - epoch) / schedule.step) := by
        rw [Int.mul_comm]
        omega
      rw [apart]
      exact dvd_sub_left (Dvd.intro _ rfl)
    rw [Schedule.Kept, or_iff_right few]
    by_cases over_plain : schedule.Over (schedule.elapsed now + 1) (schedule.upcoming now)
    · rw [(schedule.rule schedule.start).after_of_ended (fun goes => plain_goes.mp goes over_plain)]
      by_cases over_anchored : schedule.Over 1 (schedule.boundary now)
      · rw [(schedule.rule anchor).after_of_ended (fun goes => anchored_goes.mp goes over_anchored)]
        simp [over_plain, over_anchored]
      · rw [(schedule.rule anchor).after_of_goes (anchored_goes.mpr over_anchored)]
        simp [over_plain, over_anchored]
    · rw [(schedule.rule schedule.start).after_of_goes (plain_goes.mpr over_plain)]
      by_cases over_anchored : schedule.Over 1 (schedule.boundary now)
      · rw [(schedule.rule anchor).after_of_ended (fun goes => anchored_goes.mp goes over_anchored)]
        simp [over_plain, over_anchored]
      · rw [(schedule.rule anchor).after_of_goes (anchored_goes.mpr over_anchored),
          Option.some.injEq]
        dsimp only [Schedule.rule]
        rw [in_phase]
        simp [over_plain, over_anchored]

section Samples

/-- `DTSTART:20250101T000000` and `RRULE:FREQ=MINUTELY;COUNT=5`. -/
def fiveMinutes : String := "DTSTART:20250101T000000\nRRULE:FREQ=MINUTELY;COUNT=5"

def minute : Int := 60000000

def day (days : Int) : Int := (9132 + days) * 1440 * minute

def fiveMinutesUtil : Dateutil where
  upper := String.toUpper
  parse text := if text = "20250101T000000" then .ok (day 0) else .error .valueError
  rrulestr text start :=
    match start with
    | none => if text = fiveMinutes then .ok ⟨day 0, minute, some 5, none⟩ else .error .valueError
    | some anchor =>
      if text = "RRULE:FREQ=MINUTELY;COUNT=5" then .ok ⟨anchor, minute, some 5, none⟩
      else .error .valueError

def fiveMinutesSchedule : Schedule := ⟨day 0, minute, some 5, none⟩

theorem fiveMinutes_spelled : Says fiveMinutesUtil fiveMinutes fiveMinutesSchedule where
  no_exrule := by decide +kernel
  one_rule := by decide +kernel
  step := ⟨minute, 1, by decide +kernel, by decide +kernel, by decide, by decide⟩
  every_minute := by decide +kernel
  every_second := by decide +kernel
  starts := ⟨"20250101T000000", by decide +kernel, by decide +kernel, by decide +kernel⟩
  plain := by simp [fiveMinutesUtil, Schedule.rule, fiveMinutesSchedule]
  anchored := by
    intro anchor
    have left : withoutStart fiveMinutesUtil fiveMinutes = "RRULE:FREQ=MINUTELY;COUNT=5" := by
      decide +kernel
    rw [left]
    simp [fiveMinutesUtil, Schedule.rule, fiveMinutesSchedule]

theorem fiveMinutes_after_iff :
    (parse_rule fiveMinutesUtil fiveMinutes (day 365)).map (Rule.after · (day 365)) =
        (fiveMinutesUtil.rrulestr fiveMinutes none).map (Rule.after · (day 365)) ↔
      fiveMinutesSchedule.Kept (day 365) :=
  parse_rule_after_iff fiveMinutes_spelled (day 365)

/-- A year later the five minutes are long over, and start again. -/
theorem exhausted_rule_revived :
    ¬ ∀ (dateutil : Dateutil) (s : String) (schedule : Schedule) (now : Int),
      Says dateutil s schedule →
        (parse_rule dateutil s now).map (Rule.after · now) =
          (dateutil.rrulestr s none).map (Rule.after · now) := by
  intro always
  have same := always fiveMinutesUtil fiveMinutes fiveMinutesSchedule (day 365) fiveMinutes_spelled
  have revived : (parse_rule fiveMinutesUtil fiveMinutes (day 365)).map (Rule.after · (day 365)) =
      .ok (some (day 365 + minute)) := by
    rw [fiveMinutes_spelled.parse_rule_eq]
    decide +kernel
  have ended : (fiveMinutesUtil.rrulestr fiveMinutes none).map (Rule.after · (day 365)) =
      .ok none := by
    rw [fiveMinutes_spelled.plain]
    decide +kernel
  rw [revived, ended] at same
  simp at same

end Samples

end OpenWebui.Automations
