import Mathlib.Algebra.Order.Ring.Unbundled.Rat
import Mathlib.Data.List.Basic
import OpenWebui.Utils.Usage

/-! `get_upcoming_events`: the events whose alerts are due. Times are nanoseconds. -/

namespace OpenWebui.Calendar

open Utils (asNumber)

structure CalendarEvent where
  id : String
  user_id : String
  start_at : Int
  meta_ : Option Fields
  is_cancelled : Bool
  deriving DecidableEq

def minute : Int := 60 * 1000000000

section Query

variable (now_ns default_lookahead_ns grace_ns : Int) (event : CalendarEvent)

/-- `meta['alert_minutes']`, if there is one. -/
def alert_minutes : Json := (event.meta_.map (fun fields => getField fields "alert_minutes")).getD .null

def max_lookahead_ns : Int := max default_lookahead_ns (60 * minute)

def fetches : Bool :=
  !event.is_cancelled && decide (now_ns - grace_ns ≤ event.start_at) &&
    decide (event.start_at ≤ now_ns + max_lookahead_ns default_lookahead_ns)

def event_lookahead_ns : Except PyError (Option Rat) :=
  if alert_minutes event = .null then .ok (some default_lookahead_ns)
  else
    match asNumber (alert_minutes event) with
    | none => .error .typeError
    | some minutes => .ok (if minutes < 0 then none else some (minutes * minute))

def near (lookahead : Option Rat) : Bool :=
  lookahead.any (fun ahead => decide ((event.start_at : Rat) ≤ now_ns + ahead))

def collect (timezone : String → Option String) (found : List (CalendarEvent × Option String)) :
    Except PyError (List (CalendarEvent × Option String)) := do
  let lookahead ← event_lookahead_ns default_lookahead_ns event
  if near now_ns event lookahead then return found ++ [(event, timezone event.user_id)]
  else return found

end Query

def get_upcoming_events (events : List CalendarEvent) (timezone : String → Option String)
    (now_ns default_lookahead_ns grace_ns : Int) :
    Except PyError (List (CalendarEvent × Option String)) :=
  (events.filter (fetches now_ns default_lookahead_ns grace_ns)).foldlM
    (fun found event => collect now_ns default_lookahead_ns event timezone found) []

/-- The minutes of the alert are a number, where they are given. -/
def Numbered (event : CalendarEvent) : Prop :=
  alert_minutes event = .null ∨ ∃ minutes, asNumber (alert_minutes event) = some minutes

/-- How long before its start an event is to alert: its own minutes, else the default, and never
when the minutes are negative. -/
def ownLookahead (default_lookahead_ns : Int) (event : CalendarEvent) : Option Rat :=
  match asNumber (alert_minutes event) with
  | none => some default_lookahead_ns
  | some minutes => if minutes < 0 then none else some (minutes * minute)

def due (default_lookahead_ns grace_ns now_ns : Int) (event : CalendarEvent) : Bool :=
  near now_ns event (ownLookahead default_lookahead_ns event) &&
    decide (now_ns - grace_ns ≤ event.start_at)

def reported (events : List CalendarEvent) (timezone : String → Option String)
    (default_lookahead_ns grace_ns now_ns : Int) (event : CalendarEvent) : Bool :=
  match get_upcoming_events events timezone now_ns default_lookahead_ns grace_ns with
  | .ok found => found.any (fun row => decide (row.1 = event))
  | .error _ => false

/-- The query reads the event, where it starts within the hour or the default. -/
def Reached (default_lookahead_ns now_ns : Int) (event : CalendarEvent) : Prop :=
  event.start_at ≤ now_ns + max_lookahead_ns default_lookahead_ns

variable {events : List CalendarEvent} {timezone : String → Option String}
  {now_ns default_lookahead_ns grace_ns : Int}

theorem Numbered.event_lookahead_eq {event : CalendarEvent} (numbered : Numbered event) :
    event_lookahead_ns default_lookahead_ns event =
      .ok (ownLookahead default_lookahead_ns event) := by
  rw [event_lookahead_ns, ownLookahead]
  rcases numbered with absent | ⟨minutes, given⟩
  · rw [if_pos absent, absent]
    rfl
  · have present : alert_minutes event ≠ .null := by
      intro absent
      rw [absent] at given
      cases given
    rw [if_neg present, given]

theorem Numbered.collect_eq {event : CalendarEvent} (numbered : Numbered event)
    (found : List (CalendarEvent × Option String)) :
    collect now_ns default_lookahead_ns event timezone found =
      .ok (if near now_ns event (ownLookahead default_lookahead_ns event) = true then
        found ++ [(event, timezone event.user_id)] else found) := by
  rw [collect, numbered.event_lookahead_eq]
  dsimp only [bind, Except.bind]
  split <;> rfl

theorem foldlM_collect {rows : List CalendarEvent} (numbered : ∀ event ∈ rows, Numbered event)
    (found : List (CalendarEvent × Option String)) :
    rows.foldlM (fun found event => collect now_ns default_lookahead_ns event timezone found) found =
      .ok (found ++ (rows.filter (fun event =>
        near now_ns event (ownLookahead default_lookahead_ns event))).map
          (fun event => (event, timezone event.user_id))) := by
  induction rows generalizing found with
  | nil => simp [pure, Except.pure]
  | cons event rest ih =>
    have later := fun other member => numbered other (List.mem_cons_of_mem event member)
    rw [List.foldlM_cons, (numbered event (List.mem_cons_self ..)).collect_eq]
    dsimp only [bind, Except.bind]
    rw [ih later, List.filter_cons]
    split
    · rw [List.map_cons, List.append_assoc, List.singleton_append]
    · rfl

theorem get_upcoming_events_eq (numbered : ∀ event ∈ events, Numbered event) :
    get_upcoming_events events timezone now_ns default_lookahead_ns grace_ns =
      .ok (((events.filter (fetches now_ns default_lookahead_ns grace_ns)).filter (fun event =>
        near now_ns event (ownLookahead default_lookahead_ns event))).map
          (fun event => (event, timezone event.user_id))) := by
  rw [get_upcoming_events, foldlM_collect, List.nil_append]
  intro event member
  exact numbered event (List.mem_of_mem_filter member)

theorem reported_iff (numbered : ∀ event ∈ events, Numbered event) {event : CalendarEvent}
    (member : event ∈ events) (active : event.is_cancelled = false) :
    reported events timezone default_lookahead_ns grace_ns now_ns event = true ↔
      due default_lookahead_ns grace_ns now_ns event = true ∧
        Reached default_lookahead_ns now_ns event := by
  rw [reported, get_upcoming_events_eq numbered]
  simp only [List.any_map, List.any_eq_true, List.mem_filter, Function.comp_apply, decide_eq_true_eq,
    fetches, due, Reached, Bool.and_eq_true, Bool.not_eq_true']
  constructor
  · rintro ⟨other, ⟨⟨_, ⟨_, recent⟩, within⟩, close⟩, rfl⟩
    exact ⟨⟨close, recent⟩, within⟩
  · rintro ⟨⟨close, recent⟩, within⟩
    exact ⟨event, ⟨⟨member, ⟨active, recent⟩, within⟩, close⟩, rfl⟩

theorem first_report_iff (numbered : ∀ event ∈ events, Numbered event) {event : CalendarEvent}
    (member : event ∈ events) (active : event.is_cancelled = false) (polls : List Int) :
    polls.find? (fun now => reported events timezone default_lookahead_ns grace_ns now event) =
        polls.find? (fun now => due default_lookahead_ns grace_ns now event) ↔
      ∀ now ∈ polls.find? (fun now => due default_lookahead_ns grace_ns now event),
        Reached default_lookahead_ns now event := by
  induction polls with
  | nil => simp
  | cons now rest ih =>
    rw [List.find?_cons, List.find?_cons]
    cases window : due default_lookahead_ns grace_ns now event with
    | false =>
      have silent : reported events timezone default_lookahead_ns grace_ns now event = false := by
        rw [← Bool.not_eq_true, reported_iff numbered member active, window]
        simp
      rw [silent]
      exact ih
    | true =>
      have shown := @reported_iff _ timezone now default_lookahead_ns grace_ns numbered event member
        active
      rw [window] at shown
      dsimp only
      cases report : reported events timezone default_lookahead_ns grace_ns now event with
      | true =>
        have reached := (shown.mp report).2
        simpa using reached
      | false =>
        have unreached : ¬ Reached default_lookahead_ns now event := by
          intro reached
          rw [shown.mpr ⟨rfl, reached⟩] at report
          cases report
        refine iff_of_false (fun same => ?_) (fun all => unreached (all now rfl))
        -- A later poll that is the same time would report the event at this one.
        dsimp only at same
        have again := List.find?_some same
        rw [report] at again
        cases again

/-- An event is returned exactly in the window of its alert, and first reported by the first poll
in it, exactly where it starts within the reach of the query then. -/
theorem get_upcoming_events_due_iff (events : List CalendarEvent)
    (timezone : String → Option String) (default_lookahead_ns grace_ns : Int)
    (numbered : ∀ event ∈ events, Numbered event) :
    (∀ now_ns, (get_upcoming_events events timezone now_ns default_lookahead_ns grace_ns).isOk =
        true) ∧
      ∀ event ∈ events, event.is_cancelled = false →
        (∀ now_ns,
          (reported events timezone default_lookahead_ns grace_ns now_ns event =
              due default_lookahead_ns grace_ns now_ns event ↔
            (due default_lookahead_ns grace_ns now_ns event = true →
              Reached default_lookahead_ns now_ns event))) ∧
        ∀ polls : List Int,
          (polls.find? (fun now => reported events timezone default_lookahead_ns grace_ns now event) =
              polls.find? (fun now => due default_lookahead_ns grace_ns now event) ↔
            ∀ now ∈ polls.find? (fun now => due default_lookahead_ns grace_ns now event),
              Reached default_lookahead_ns now event) := by
  refine ⟨fun now_ns => by rw [get_upcoming_events_eq numbered]; rfl,
    fun event member active => ⟨fun now_ns => ?_, first_report_iff numbered member active⟩⟩
  have shown := @reported_iff _ timezone now_ns default_lookahead_ns grace_ns numbered event member
    active
  rw [Bool.eq_iff_iff, shown]
  exact ⟨fun both window => (both.mpr window).2, fun reach =>
    ⟨fun both => both.1, fun window => ⟨window, reach window⟩⟩⟩

section Samples

def twoHoursAhead : CalendarEvent :=
  ⟨"e", "ann", 120 * minute, some [("alert_minutes", .num 120)], false⟩

theorem twoHoursAhead_numbered : ∀ event ∈ [twoHoursAhead], Numbered event := by
  intro event member
  rw [List.mem_singleton.mp member]
  exact Or.inr ⟨120, rfl⟩

/-- The event is reported an hour after its window began. -/
theorem twoHoursAhead_reported :
    (∀ now_ns, (get_upcoming_events [twoHoursAhead] (fun _ => none) now_ns (10 * minute)
        15000000000).isOk = true) ∧
      ∀ event ∈ [twoHoursAhead], event.is_cancelled = false →
        (∀ now_ns,
          (reported [twoHoursAhead] (fun _ => none) (10 * minute) 15000000000 now_ns event =
              due (10 * minute) 15000000000 now_ns event ↔
            (due (10 * minute) 15000000000 now_ns event = true →
              Reached (10 * minute) now_ns event))) ∧
        ∀ polls : List Int,
          (polls.find? (fun now =>
              reported [twoHoursAhead] (fun _ => none) (10 * minute) 15000000000 now event) =
              polls.find? (fun now => due (10 * minute) 15000000000 now event) ↔
            ∀ now ∈ polls.find? (fun now => due (10 * minute) 15000000000 now event),
              Reached (10 * minute) now event) :=
  get_upcoming_events_due_iff [twoHoursAhead] (fun _ => none) (10 * minute) 15000000000
    twoHoursAhead_numbered

/-- An event that alerts more than an hour before is not returned when it is due. -/
theorem far_alert_missed :
    ¬ ∀ (events : List CalendarEvent) (timezone : String → Option String)
      (default_lookahead_ns grace_ns now_ns : Int), (∀ event ∈ events, Numbered event) →
        ∀ event ∈ events, event.is_cancelled = false →
          reported events timezone default_lookahead_ns grace_ns now_ns event =
            due default_lookahead_ns grace_ns now_ns event := by
  intro always
  have same := always [twoHoursAhead] (fun _ => none) (10 * minute) 15000000000 0
    twoHoursAhead_numbered twoHoursAhead (List.mem_singleton_self _) rfl
  revert same
  decide +kernel

end Samples

end OpenWebui.Calendar
