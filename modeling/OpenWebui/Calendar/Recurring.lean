import OpenWebui.Automations.Anchoring

/-! `expand_recurring_event`: the instances of a recurring event in a range. The times of its rule
are read on the clock of the server and written with the zone of the user. Events and ranges are in
nanoseconds, clocks in microseconds; the rounding of floating point numbers is left out. -/

namespace OpenWebui.Calendar

open Automations (Occurrences)

/-- The fields of an event, or of an instance of one, that the expansion reads or writes. -/
structure EventDict where
  id : String
  start_at : Int
  end_at : Option Int
  rrule : Option String
  instance_id : Option String
  deriving DecidableEq

def microseconds (ns : Int) : Int :=
  let whole := ns / 1000
  let left := ns % 1000
  if left < 500 then whole
  else if left = 500 then whole + whole % 2
  else whole + 1

def oneDay : Int := 86400000000

/-- The offsets of the server and of the zones that it knows, in microseconds, and the rules that
dateutil makes of a text and a start. -/
structure Clocks where
  server : Int
  ZoneInfo : String → Option Int
  rrulestr : String → Int → Except PyError Occurrences

variable (clocks : Clocks)

def userOffset (tz : Option String) : Int :=
  match tz with
  | none => clocks.server
  | some name => if name = "" then clocks.server else (clocks.ZoneInfo name).getD clocks.server

/-- `duration_ns`. -/
def duration_ns (event_dict : EventDict) : Option Int :=
  event_dict.end_at.bind (fun end_ => if end_ = 0 then none else some (end_ - event_dict.start_at))

def instanceAt (event_dict : EventDict) (instance_start_ns : Int) : EventDict :=
  { event_dict with
    start_at := instance_start_ns
    end_at := (duration_ns event_dict).bind (fun duration =>
      if duration = 0 then none else some (instance_start_ns + duration))
    instance_id := some (event_dict.id ++ "_" ++ toString instance_start_ns) }

section Loop

variable (rule : Occurrences) (range_end_dt range_start_ns offset : Int) (max_instances : Nat)
  (event_dict : EventDict)

def expandLoop : Nat → Option Int → List EventDict → List EventDict
  | 0, _, instances => instances
  | _ + 1, none, instances => instances
  | fuel + 1, some dt, instances =>
    if dt < range_end_dt ∧ instances.length < max_instances then
      let instance_start_ns := 1000 * (dt - offset)
      expandLoop fuel (rule.after dt)
        (if range_start_ns ≤ instance_start_ns then
          instances ++ [instanceAt event_dict instance_start_ns] else instances)
    else instances

end Loop

def expand_recurring_event (event_dict : EventDict) (range_start_ns range_end_ns : Int)
    (tz : Option String) (max_instances : Nat) : List EventDict :=
  match event_dict.rrule with
  | none => [event_dict]
  | some rrule_str =>
    if rrule_str = "" then [event_dict]
    else
      let range_start_dt := microseconds range_start_ns + clocks.server
      let range_end_dt := microseconds range_end_ns + clocks.server
      let scan_start := range_start_dt - oneDay
      let original_start_dt := microseconds event_dict.start_at + clocks.server
      match clocks.rrulestr rrule_str original_start_dt with
      | .error _ => [event_dict]
      | .ok rule =>
        -- The next time after the microsecond before is the first one from the start on.
        expandLoop rule range_end_dt range_start_ns (userOffset clocks tz) max_instances event_dict
          ((range_end_dt - scan_start).toNat + 1) (rule.after (scan_start - 1)) []

section Loop

variable {rule : Occurrences} {range_end_dt range_start_ns offset : Int} {max_instances : Nat}
  {event_dict : EventDict}

/-- The first time of a rule from a time on, if there is one. -/
def IsNext (rule : Occurrences) (from_ : Int) (next : Option Int) : Prop :=
  match next with
  | none => ∀ time ∈ rule.times, time < from_
  | some dt => IsLeast { time | time ∈ rule.times ∧ from_ ≤ time } dt

theorem isNext_after (rule : Occurrences) (now : Int) : IsNext rule (now + 1) (rule.after now) := by
  cases found : rule.after now with
  | none =>
    intro time member
    have over_ := rule.ended now found time member
    omega
  | some dt =>
    obtain ⟨⟨member, later⟩, least⟩ := rule.next now dt found
    exact ⟨⟨member, later⟩, fun time both => least ⟨both.1, both.2⟩⟩

/-- The starts of the instances, in the order of the times. -/
structure Starts (rule : Occurrences) (from_ range_end_dt range_start_ns offset : Int)
    (starts : List Int) : Prop where
  increasing : starts.Pairwise (· < ·)
  members : ∀ start, start ∈ starts ↔ ∃ time ∈ rule.times, from_ ≤ time ∧ time < range_end_dt ∧
    range_start_ns ≤ start ∧ start = 1000 * (time - offset)

theorem expandLoop_spec (fuel : Nat) (from_ : Int) (next : Option Int) (instances : List EventDict)
    (least : IsNext rule from_ next) (enough : (range_end_dt - from_).toNat < fuel)
    (few : (expandLoop rule range_end_dt range_start_ns offset max_instances event_dict fuel next
      instances).length < max_instances) :
    ∃ starts, expandLoop rule range_end_dt range_start_ns offset max_instances event_dict fuel next
        instances = instances ++ starts.map (instanceAt event_dict) ∧
      Starts rule from_ range_end_dt range_start_ns offset starts := by
  induction fuel generalizing from_ next instances with
  | zero => exact absurd enough (Nat.not_lt_zero _)
  | succ fuel ih =>
    cases next with
    | none =>
      refine ⟨[], (List.append_nil _).symm, List.Pairwise.nil, fun start => ?_⟩
      refine iff_of_false (List.not_mem_nil) ?_
      rintro ⟨time, member, later, _⟩
      exact absurd (least time member) (Int.not_lt.mpr later)
    | some dt =>
      obtain ⟨⟨member, later⟩, lowest⟩ := least
      rw [expandLoop] at few ⊢
      by_cases goes : dt < range_end_dt ∧ instances.length < max_instances
      · rw [if_pos goes] at few ⊢
        obtain ⟨starts, done, increasing, members⟩ := ih (dt + 1) (rule.after dt) _
          (isNext_after rule dt) (by omega) few
        -- The times from here on are this one and those after it.
        have rest : ∀ time ∈ rule.times, from_ ≤ time ↔ time = dt ∨ dt + 1 ≤ time := by
          intro time present
          refine ⟨fun bound => ?_, fun either => ?_⟩
          · have above := lowest ⟨present, bound⟩
            omega
          · omega
        by_cases shown : range_start_ns ≤ 1000 * (dt - offset)
        · refine ⟨1000 * (dt - offset) :: starts, ?_, ?_, fun start => ?_⟩
          · rw [done, if_pos shown, List.append_assoc]
            rfl
          · refine List.pairwise_cons.mpr ⟨fun start present => ?_, increasing⟩
            obtain ⟨time, _, above, _, _, rfl⟩ := (members start).mp present
            omega
          · rw [List.mem_cons, members]
            constructor
            · rintro (rfl | ⟨time, present, above, below, visible, same⟩)
              · exact ⟨dt, member, later, goes.1, shown, rfl⟩
              · exact ⟨time, present, (rest time present).mpr (Or.inr above), below, visible, same⟩
            · rintro ⟨time, present, bound, below, visible, same⟩
              rcases (rest time present).mp bound with rfl | above
              · exact Or.inl same
              · exact Or.inr ⟨time, present, above, below, visible, same⟩
        · refine ⟨starts, by rw [done, if_neg shown], increasing, fun start => ?_⟩
          rw [members]
          constructor
          · rintro ⟨time, present, above, below, visible, same⟩
            exact ⟨time, present, (rest time present).mpr (Or.inr above), below, visible, same⟩
          · rintro ⟨time, present, bound, below, visible, same⟩
            rcases (rest time present).mp bound with rfl | above
            · exact absurd (same ▸ visible) shown
            · exact ⟨time, present, above, below, visible, same⟩
      · rw [if_neg goes] at few ⊢
        refine ⟨[], (List.append_nil _).symm, List.Pairwise.nil, fun start => ?_⟩
        refine iff_of_false (List.not_mem_nil) ?_
        rintro ⟨time, present, bound, below, _⟩
        have above := lowest ⟨present, bound⟩
        exact goes ⟨by omega, few⟩

end Loop

/-- The instances are the times of the series in the range, in order and with the duration of the
event, and the event itself is one of them if it starts in the range. -/
structure Exact (series : Occurrences) (offset : Int) (event_dict : EventDict)
    (range_start_ns range_end_ns : Int) (instances : List EventDict) : Prop where
  members : ∀ start, start ∈ instances.map EventDict.start_at ↔
    ∃ time ∈ series.times, start = 1000 * (time - offset) ∧ range_start_ns ≤ start ∧
      start < range_end_ns
  increasing : (instances.map EventDict.start_at).Pairwise (· < ·)
  durations : ∀ shown ∈ instances, shown.end_at =
    event_dict.end_at.map (fun end_ => shown.start_at + (end_ - event_dict.start_at))
  own_start : range_start_ns ≤ event_dict.start_at → event_dict.start_at < range_end_ns →
    event_dict.start_at ∈ instances.map EventDict.start_at

/-- In the range the rule has the same times on the clock of the server as on that of the user, and
the scan, which is bounded on the clock of the server, comes to these and no others. -/
structure Aligned (rule series : Occurrences) (server offset range_start_ns range_end_ns : Int) :
    Prop where
  kept : ∀ time ∈ series.times, range_start_ns ≤ 1000 * (time - offset) →
    1000 * (time - offset) < range_end_ns → time ∈ rule.times ∧
      microseconds range_start_ns + server - oneDay ≤ time ∧
      time < microseconds range_end_ns + server
  no_more : ∀ time ∈ rule.times, microseconds range_start_ns + server - oneDay ≤ time →
    time < microseconds range_end_ns + server → range_start_ns ≤ 1000 * (time - offset) →
      time ∈ series.times ∧ 1000 * (time - offset) < range_end_ns

/-- The event has no end, or one that is neither the epoch nor its start. -/
def KeepsDuration (event_dict : EventDict) : Prop :=
  ∀ end_ ∈ event_dict.end_at, end_ ≠ 0 ∧ end_ ≠ event_dict.start_at

section Exactness

variable {clocks} {rule series : Occurrences} {offset range_start_ns range_end_ns : Int}
  {event_dict : EventDict} {starts : List Int}

theorem starts_map (event_dict : EventDict) (starts : List Int) :
    (starts.map (instanceAt event_dict)).map EventDict.start_at = starts := by
  rw [List.map_map]
  exact List.map_id starts

theorem end_at_eq_iff (start : Int) :
    (instanceAt event_dict start).end_at =
        event_dict.end_at.map (fun end_ => start + (end_ - event_dict.start_at)) ↔
      KeepsDuration event_dict := by
  rw [instanceAt, duration_ns, KeepsDuration]
  cases event_dict.end_at with
  | none => simp
  | some end_ =>
    by_cases epoch : end_ = 0
    · simp [epoch]
    · by_cases same : end_ = event_dict.start_at
      · subst same
        simp [epoch]
      · have long : ¬ end_ - event_dict.start_at = 0 := by omega
        simp [epoch, same, long]

theorem exact_iff_of_starts (listed : Starts rule
      (microseconds range_start_ns + clocks.server - oneDay)
      (microseconds range_end_ns + clocks.server) range_start_ns offset starts) :
    Exact series offset event_dict range_start_ns range_end_ns (starts.map (instanceAt event_dict)) ↔
      Aligned rule series clocks.server offset range_start_ns range_end_ns ∧
        ((∃ time ∈ series.times, range_start_ns ≤ 1000 * (time - offset) ∧
          1000 * (time - offset) < range_end_ns) → KeepsDuration event_dict) ∧
        (range_start_ns ≤ event_dict.start_at → event_dict.start_at < range_end_ns →
          ∃ time ∈ series.times, event_dict.start_at = 1000 * (time - offset)) := by
  have injective : ∀ {time other : Int}, 1000 * (time - offset) = 1000 * (other - offset) →
      time = other := fun same => by omega
  constructor
  · intro exact_
    have members := exact_.members
    rw [starts_map] at members
    refine ⟨⟨?_, ?_⟩, ?_, ?_⟩
    · intro time member visible below
      obtain ⟨other, present, after, before, _, same⟩ :=
        (listed.members _).mp ((members _).mpr ⟨time, member, rfl, visible, below⟩)
      obtain rfl := injective same
      exact ⟨present, after, before⟩
    · intro time member after before visible
      obtain ⟨other, present, same, _, below⟩ :=
        (members _).mp ((listed.members _).mpr ⟨time, member, after, before, visible, rfl⟩)
      obtain rfl := injective same
      exact ⟨present, below⟩
    · rintro ⟨time, member, visible, below⟩
      have shown := (members _).mpr ⟨time, member, rfl, visible, below⟩
      exact (end_at_eq_iff _).mp (exact_.durations _ (List.mem_map_of_mem shown))
    · intro visible below
      obtain ⟨time, member, same, _⟩ := (exact_.members _).mp (exact_.own_start visible below)
      exact ⟨time, member, same⟩
  · rintro ⟨aligned, durations, own⟩
    have members : ∀ start, start ∈ starts ↔ ∃ time ∈ series.times,
        start = 1000 * (time - offset) ∧ range_start_ns ≤ start ∧ start < range_end_ns := by
      intro start
      rw [listed.members]
      constructor
      · rintro ⟨time, member, after, before, visible, rfl⟩
        obtain ⟨present, below⟩ := aligned.no_more time member after before visible
        exact ⟨time, present, rfl, visible, below⟩
      · rintro ⟨time, member, rfl, visible, below⟩
        obtain ⟨present, after, before⟩ := aligned.kept time member visible below
        exact ⟨time, present, after, before, visible, rfl⟩
    refine ⟨?_, ?_, ?_, ?_⟩
    · rwa [starts_map]
    · rw [starts_map]
      exact listed.increasing
    · intro shown present
      obtain ⟨start, member, rfl⟩ := List.mem_map.mp present
      obtain ⟨time, there, rfl, visible, below⟩ := (members start).mp member
      exact (end_at_eq_iff _).mpr (durations ⟨time, there, visible, below⟩)
    · intro visible below
      rw [starts_map, members]
      obtain ⟨time, member, same⟩ := own visible below
      exact ⟨time, member, same, visible, below⟩

end Exactness

section Samples

def once (start : Int) : Occurrences :=
  Automations.Rule.occurrences ⟨start, oneDay, some 1, none⟩ (by decide : (0 : Int) < oneDay)

def greenwich : Clocks where
  server := 0
  ZoneInfo name := if name = "Africa/Cairo" then some 7200000000 else none
  rrulestr _ start := .ok (once start)

def appointment : EventDict :=
  ⟨"e", 864000000000000, some 867600000000000, some "FREQ=DAILY;COUNT=1", none⟩

theorem appointment_few :
    (expand_recurring_event greenwich appointment 864000000000000 950400000000000 none 5000).length <
      5000 := by decide

end Samples

end OpenWebui.Calendar
