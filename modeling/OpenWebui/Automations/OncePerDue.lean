import Mathlib.Data.List.Nodup
import Mathlib.Logic.Function.Basic
import OpenWebui.Base.Dict
import OpenWebui.Base.Runs

/-! `claim_due`: how any number of workers select due automations, compute when they run next, and
write it back. The select, the fetch of the time zones and the commit are one step each. -/

namespace OpenWebui.Automations

structure Automation where
  user_id : String
  rrule : String
  is_active : Bool
  last_run_at : Option Int
  next_run_at : Option Int
deriving DecidableEq

structure Calendar where
  /-- What the clock of a zone shows at a moment; without a zone, or with an unknown one, the
  clock of the server. -/
  clock : Option String → Int → Int
  /-- `dt.replace(tzinfo=zi)`: the first moment at which the clock of a zone shows a reading. -/
  stamp : Option String → Int → Int
  /-- `_parse_rule(s, now).after(now)`, which raises for a rule that cannot be parsed. -/
  after : String → Int → Option (Option Int)
  /-- A reading that the clock skips is put behind the gap. -/
  shown : ∀ tz reading, reading ≤ clock tz (stamp tz reading)
  later : ∀ s now reading, after s now = some (some reading) → now < reading

/-- `next_run_ns` at a moment. -/
def next_run_ns (calendar : Calendar) (s : String) (tz : Option String) (now : Int) :
    Option (Option Int) :=
  (calendar.after s (calendar.clock tz now)).map (fun dt => dt.map (calendar.stamp tz))

abbrev Rows := List (String × Automation)

/-- How far a call of `claim_due` has come. -/
inductive Phase where
  | idle
  | selected (now_ns : Int) (rows : Rows)
  | zoned (now_ns : Int) (rows : Rows) (timezone_by_user_id : String → Option String)
  | returned (rows : Rows)
  | raised

/-- What a call does next. The fetch finds whatever time zones the users have; every row is
rescheduled at a moment of its own. -/
inductive Action where
  | select (now_ns : Int) (limit : Nat)
  | fetch (timezone_by_user_id : String → Option String)
  | commit (moment : String → Int)

/-- An automation that a call has returned: the time it was due, the time of the call, and the
time it was put off to. -/
structure Claim where
  automation_id : String
  due : Int
  now_ns : Int
  next : Option Int
deriving DecidableEq

/-- The table, the rows that `FOR UPDATE` has locked, the calls, and what they have claimed. -/
structure System where
  automations : Dict String Automation
  locked : List String
  calls : Nat → Phase
  claims : List Claim

def Automation.dueAt (automation : Automation) (now_ns : Int) : Bool :=
  automation.is_active &&
    match automation.next_run_at with
    | some next_run_at => decide (next_run_at ≤ now_ns)
    | none => false

namespace System

def start (automations : Dict String Automation) : System :=
  ⟨automations, [], fun _ => .idle, []⟩

def due (postgresql : Bool) (system : System) (now_ns : Int) (limit : Nat) : Rows :=
  ((system.automations.entries.filter (fun row =>
      row.2.dueAt now_ns && !(postgresql && decide (row.1 ∈ system.locked)))).mergeSort
    (fun first second =>
      decide (first.2.next_run_at.getD 0 ≤ second.2.next_run_at.getD 0))).take limit

def reschedule (calendar : Calendar) (timezone_by_user_id : String → Option String)
    (moment : String → Int) (rows : Rows) : Option (List (String × Option Int)) :=
  rows.mapM (fun row =>
    (next_run_ns calendar row.2.rrule (timezone_by_user_id row.2.user_id) (moment row.1)).map
      (fun next => (row.1, next)))

def setPhase (system : System) (call : Nat) (phase : Phase) : System :=
  { system with calls := Function.update system.calls call phase }

def release (system : System) (rows : Rows) : System :=
  { system with locked := system.locked.filter (fun id => decide (id ∉ rows.map Prod.fst)) }

def write (automations : Dict String Automation) (now_ns : Int)
    (schedule : List (String × Option Int)) : Dict String Automation :=
  automations.mapValue (fun id automation =>
    match schedule.lookup id with
    | some next => { automation with last_run_at := some now_ns, next_run_at := next }
    | none => automation)

def claimsOf (now_ns : Int) (rows : Rows) (schedule : List (String × Option Int)) : List Claim :=
  rows.map (fun row =>
    ⟨row.1, row.2.next_run_at.getD 0, now_ns, (schedule.lookup row.1).join⟩)

def act (calendar : Calendar) (postgresql : Bool) (system : System) (event : Nat × Action) :
    Option System :=
  match system.calls event.1, event.2 with
  | .idle, .select now_ns limit =>
    let rows := due postgresql system now_ns limit
    let locks := if postgresql then rows.map Prod.fst else []
    some ({ system with locked := system.locked ++ locks }.setPhase event.1 (.selected now_ns rows))
  | .selected now_ns rows, .fetch timezone_by_user_id =>
    some (system.setPhase event.1 (.zoned now_ns rows timezone_by_user_id))
  | .zoned now_ns rows timezone_by_user_id, .commit moment =>
    match reschedule calendar timezone_by_user_id moment rows with
    | some schedule =>
      some (({ system with
        automations := write system.automations now_ns schedule
        claims := system.claims ++ claimsOf now_ns rows schedule }.release rows).setPhase event.1
          (.returned rows))
    -- a rule that cannot be parsed rolls the whole call back
    | none => some ((system.release rows).setPhase event.1 .raised)
  | _, _ => none

abbrev run (calendar : Calendar) (postgresql : Bool) (system : System)
    (events : List (Nat × Action)) : Option System :=
  events.foldlM (act calendar postgresql) system

end System

def Phase.working : Phase → Option (Int × Rows)
  | .selected now_ns rows => some (now_ns, rows)
  | .zoned now_ns rows _ => some (now_ns, rows)
  | _ => none

namespace System

section Once

variable (calendar : Calendar) (postgresql : Bool)

/-- A call has selected the row and not committed yet. -/
def Holds (system : System) (call : Nat) (id : String) : Prop :=
  ∃ now_ns rows, (system.calls call).working = some (now_ns, rows) ∧ id ∈ rows.map Prod.fst

/-- A select without locks finds no row that another call is about to write, and no rule gives a
reading that the clock of the user had reached by the time of the call, before it was set back. -/
def Orderly (system : System) (event : Nat × Action) : Prop :=
  match event.2 with
  | .select now_ns limit => postgresql = true ∨ ∀ row ∈ due postgresql system now_ns limit,
      ∀ call, ¬ system.Holds call row.1
  | .fetch _ => True
  | .commit moment => ∀ now_ns rows timezone_by_user_id,
      system.calls event.1 = .zoned now_ns rows timezone_by_user_id → ∀ row ∈ rows, ∀ reading,
        let tz := timezone_by_user_id row.2.user_id
        calendar.after row.2.rrule (calendar.clock tz (moment row.1)) = some (some reading) →
          ∀ earlier ≤ now_ns, calendar.clock tz earlier < reading

/-- No automation was returned twice for one due time, and each was put off to a time after its
claim, or to none. -/
structure Once (system : System) : Prop where
  once : (system.claims.map (fun claim => (claim.automation_id, claim.due))).Nodup
  later : ∀ claim ∈ system.claims, ∀ next, claim.next = some next → claim.now_ns < next

/-- What holds in every state of an orderly run: what a call works on is still in the table, no
other works on it, and every automation is due after all its claims. -/
structure Inv (system : System) : Prop extends system.Once where
  distinct : ∀ call now_ns rows, (system.calls call).working = some (now_ns, rows) →
    (rows.map Prod.fst).Nodup
  unchanged : ∀ call now_ns rows, (system.calls call).working = some (now_ns, rows) →
    ∀ row ∈ rows, system.automations.get? row.1 = some row.2 ∧
      ∃ due, row.2.next_run_at = some due ∧ due ≤ now_ns
  apart : ∀ call other id, system.Holds call id → system.Holds other id → call = other
  locked : postgresql = true → ∀ call id, system.Holds call id → id ∈ system.locked
  ahead : ∀ claim ∈ system.claims, ∀ automation next,
    system.automations.get? claim.automation_id = some automation →
      automation.next_run_at = some next → claim.due < next

theorem mem_due {system : System} {now_ns : Int} {limit : Nat} {row : String × Automation}
    (member : row ∈ due postgresql system now_ns limit) :
    system.automations.get? row.1 = some row.2 ∧
      (∃ due, row.2.next_run_at = some due ∧ due ≤ now_ns) ∧
        (postgresql = true → row.1 ∉ system.locked) := by
  have sorted := List.mem_of_mem_take member
  rw [List.mem_mergeSort, List.mem_filter] at sorted
  obtain ⟨there, passes⟩ := sorted
  rw [Bool.and_eq_true, Automation.dueAt, Bool.and_eq_true] at passes
  obtain ⟨⟨_, is_due⟩, free⟩ := passes
  refine ⟨Dict.mem_entries_iff.mp there, ?_, ?_⟩
  · cases next : row.2.next_run_at with
    | none => simp [next] at is_due
    | some due => exact ⟨due, rfl, by simpa [next] using is_due⟩
  · intro locks
    simpa [locks] using free

theorem due_distinct (system : System) (now_ns : Int) (limit : Nat) :
    ((due postgresql system now_ns limit).map Prod.fst).Nodup := by
  have sorted : (((system.automations.entries.filter (fun row =>
      row.2.dueAt now_ns && !(postgresql && decide (row.1 ∈ system.locked)))).mergeSort
        (fun first second => decide
          (first.2.next_run_at.getD 0 ≤ second.2.next_run_at.getD 0))).map Prod.fst).Nodup := by
    refine ((List.mergeSort_perm _ _).map Prod.fst).nodup_iff.mpr ?_
    exact system.automations.keys_nodup.sublist (List.filter_sublist.map Prod.fst)
  exact sorted.sublist ((List.take_sublist _ _).map Prod.fst)

theorem reschedule_keys {timezone_by_user_id : String → Option String} {moment : String → Int}
    {rows : Rows} {schedule : List (String × Option Int)}
    (computed : reschedule calendar timezone_by_user_id moment rows = some schedule) :
    schedule.map Prod.fst = rows.map Prod.fst := by
  induction rows generalizing schedule with
  | nil =>
    obtain rfl := Option.some.inj computed
    rfl
  | cons row rest ih =>
    rw [reschedule, List.mapM_cons, Option.bind_eq_bind, Option.bind_eq_some_iff] at computed
    obtain ⟨entry, first, computed⟩ := computed
    rw [Option.bind_eq_bind, Option.bind_eq_some_iff] at computed
    obtain ⟨later, computed, same⟩ := computed
    obtain ⟨next, _, rfl⟩ := Option.map_eq_some_iff.mp first
    obtain rfl := Option.some.inj same
    rw [List.map_cons, List.map_cons, ih computed]

theorem reschedule_lookup {timezone_by_user_id : String → Option String} {moment : String → Int}
    {rows : Rows} {schedule : List (String × Option Int)} (distinct : (rows.map Prod.fst).Nodup)
    (computed : reschedule calendar timezone_by_user_id moment rows = some schedule)
    {row : String × Automation} (member : row ∈ rows) :
    ∃ next, schedule.lookup row.1 = some next ∧
      next_run_ns calendar row.2.rrule (timezone_by_user_id row.2.user_id) (moment row.1) =
        some next := by
  induction rows generalizing schedule with
  | nil => cases member
  | cons first rest ih =>
    rw [reschedule, List.mapM_cons, Option.bind_eq_bind, Option.bind_eq_some_iff] at computed
    obtain ⟨entry, here, computed⟩ := computed
    rw [Option.bind_eq_bind, Option.bind_eq_some_iff] at computed
    obtain ⟨later, computed, same⟩ := computed
    obtain ⟨next, occurs, rfl⟩ := Option.map_eq_some_iff.mp here
    obtain rfl := Option.some.inj same
    rw [List.map_cons, List.nodup_cons] at distinct
    rcases List.mem_cons.mp member with rfl | later
    · exact ⟨next, by rw [List.lookup_cons_self], occurs⟩
    · have other : row.1 ≠ first.1 := by
        intro clash
        exact distinct.1 (clash ▸ List.mem_map_of_mem later)
      obtain ⟨put_off, found, occurs⟩ := ih distinct.2 computed later
      refine ⟨put_off, ?_, occurs⟩
      rw [List.lookup_cons, beq_false_of_ne other]
      exact found

@[simp] theorem calls_setPhase (system : System) (call other : Nat) (phase : Phase) :
    (system.setPhase call phase).calls other = if other = call then phase else system.calls other :=
  Function.update_apply ..

section Keep

variable {calendar postgresql} {old new : System} {call other : Nat} {id : String} {phase : Phase}

theorem holds_setPhase :
    (old.setPhase call phase).Holds other id ↔
      if other = call then ∃ now_ns rows, phase.working = some (now_ns, rows) ∧
        id ∈ rows.map Prod.fst
      else old.Holds other id := by
  unfold Holds
  rw [calls_setPhase]
  split <;> rfl

theorem Inv.same_work (inv : Inv postgresql old)
    (same : phase.working = (old.calls call).working) : Inv postgresql (old.setPhase call phase) := by
  have working : ∀ other, ((old.setPhase call phase).calls other).working =
      (old.calls other).working := by
    intro other
    rw [calls_setPhase]
    split
    · rename_i moved
      rw [same, moved]
    · rfl
  have holds : ∀ other id, (old.setPhase call phase).Holds other id ↔ old.Holds other id := by
    intro other id
    unfold Holds
    rw [working]
  refine ⟨⟨inv.once, inv.later⟩, ?_, ?_, ?_, ?_, inv.ahead⟩
  · intro other now_ns rows works
    exact inv.distinct other now_ns rows (working other ▸ works)
  · intro other now_ns rows works
    exact inv.unchanged other now_ns rows (working other ▸ works)
  · intro first second id one two
    exact inv.apart first second id ((holds first id).mp one) ((holds second id).mp two)
  · exact fun locks other id held => inv.locked locks other id ((holds other id).mp held)

theorem Inv.let_go (inv : Inv postgresql old) {now_ns : Int} {rows : Rows}
    (works : (old.calls call).working = some (now_ns, rows)) (idle : phase.working = none)
    {automations : Dict String Automation} {claims : List Claim}
    (others : ∀ id, id ∉ rows.map Prod.fst → automations.get? id = old.automations.get? id)
    (once : Once ⟨automations, old.locked, old.calls, claims⟩)
    (ahead : ∀ claim ∈ claims, ∀ automation next,
      automations.get? claim.automation_id = some automation →
        automation.next_run_at = some next → claim.due < next) :
    Inv postgresql
      ((release ⟨automations, old.locked, old.calls, claims⟩ rows).setPhase call phase) := by
  have holds : ∀ other id,
      ((release ⟨automations, old.locked, old.calls, claims⟩ rows).setPhase call phase).Holds
        other id → other ≠ call ∧ old.Holds other id := by
    intro other id held
    obtain ⟨later_ns, kept, working, member⟩ := held
    rw [calls_setPhase] at working
    split at working
    · rw [idle] at working
      cases working
    · rename_i differs
      exact ⟨differs, later_ns, kept, working, member⟩
  have free : ∀ other id, other ≠ call → old.Holds other id → id ∉ rows.map Prod.fst := by
    intro other id differs held mine
    exact differs (inv.apart other call id held ⟨now_ns, rows, works, mine⟩)
  refine ⟨⟨once.once, once.later⟩, ?_, ?_, ?_, ?_, ahead⟩
  · intro other later_ns kept working
    rw [calls_setPhase] at working
    split at working
    · rw [idle] at working
      cases working
    · exact inv.distinct other later_ns kept working
  · intro other later_ns kept working row member
    rw [calls_setPhase] at working
    split at working
    · rw [idle] at working
      cases working
    · rename_i differs
      obtain ⟨there, is_due⟩ := inv.unchanged other later_ns kept working row member
      refine ⟨(others row.1 ?_).trans there, is_due⟩
      exact free other row.1 differs ⟨later_ns, kept, working, List.mem_map_of_mem member⟩
  · intro first second id one two
    exact inv.apart first second id (holds first id one).2 (holds second id two).2
  · intro locks other id held
    obtain ⟨differs, held⟩ := holds other id held
    refine List.mem_filter.mpr ⟨inv.locked locks other id held, ?_⟩
    exact decide_eq_true (free other id differs held)

theorem get?_write {automations : Dict String Automation} {now_ns : Int}
    {schedule : List (String × Option Int)} (id : String) :
    (write automations now_ns schedule).get? id = (automations.get? id).map (fun automation =>
      match schedule.lookup id with
      | some next => { automation with last_run_at := some now_ns, next_run_at := next }
      | none => automation) :=
  Dict.get?_mapValue automations _ id

theorem Inv.commit (inv : Inv postgresql old) {now_ns : Int} {rows : Rows}
    {timezone_by_user_id : String → Option String} {moment : String → Int}
    (zoned : old.calls call = .zoned now_ns rows timezone_by_user_id)
    (orderly : old.Orderly calendar postgresql (call, .commit moment))
    {schedule : List (String × Option Int)}
    (computed : reschedule calendar timezone_by_user_id moment rows = some schedule) :
    Inv postgresql (({ old with
      automations := write old.automations now_ns schedule
      claims := old.claims ++ claimsOf now_ns rows schedule }.release rows).setPhase call
        (.returned rows)) := by
  have works : (old.calls call).working = some (now_ns, rows) := by rw [zoned]; rfl
  have distinct := inv.distinct call now_ns rows works
  have unchanged := inv.unchanged call now_ns rows works
  have put_off : ∀ row ∈ rows, ∀ next, schedule.lookup row.1 = some (some next) →
      now_ns < next := by
    intro row member next found
    obtain ⟨computed_next, same, occurs⟩ := reschedule_lookup calendar distinct computed member
    obtain rfl := Option.some.inj (same.symm.trans found)
    obtain ⟨reading, gives, stamped⟩ := Option.map_eq_some_iff.mp occurs
    obtain ⟨reading, rfl, rfl⟩ := Option.map_eq_some_iff.mp stamped
    by_contra passed
    have reached := orderly now_ns rows timezone_by_user_id zoned row member reading gives
      (calendar.stamp _ reading) (Int.not_lt.mp passed)
    exact absurd (calendar.shown _ reading) (Int.not_le.mpr reached)
  have missing : ∀ id, id ∉ rows.map Prod.fst → schedule.lookup id = none := by
    intro id unselected
    rw [← reschedule_keys calendar computed] at unselected
    exact Assoc.lookup_eq_none.mpr unselected
  -- what is due after a claim is due after the times it was claimed for
  have ahead : ∀ row ∈ rows, ∀ due, due ≤ now_ns → ∀ automation next,
      (write old.automations now_ns schedule).get? row.1 = some automation →
        automation.next_run_at = some next → due < next := by
    intro row member due past automation next found is_next
    obtain ⟨there, _⟩ := unchanged row member
    obtain ⟨rescheduled, same, _⟩ := reschedule_lookup calendar distinct computed member
    rw [get?_write, there, Option.map_some, same] at found
    obtain rfl := Option.some.inj found
    exact Int.lt_of_le_of_lt past (put_off row member next (same.trans (congrArg some is_next)))
  have of_claims : ∀ claim ∈ claimsOf now_ns rows schedule, ∃ row ∈ rows,
      claim.automation_id = row.1 ∧ row.2.next_run_at = some claim.due ∧ claim.due ≤ now_ns ∧
        claim.now_ns = now_ns ∧ claim.next = (schedule.lookup row.1).join := by
    intro claim member
    obtain ⟨row, there, rfl⟩ := List.mem_map.mp member
    obtain ⟨_, due, is_due, past⟩ := unchanged row there
    exact ⟨row, there, rfl, by simp [is_due], by simpa [is_due] using past, rfl, rfl⟩
  refine inv.let_go works rfl ?_ ⟨?_, ?_⟩ ?_
  · intro id unselected
    rw [get?_write, missing id unselected]
    exact Option.map_id'
  · rw [List.map_append]
    refine List.nodup_append.mpr ⟨inv.once, ?_, ?_⟩
    · have ids : ((claimsOf now_ns rows schedule).map Claim.automation_id).Nodup := by
        simpa [claimsOf, Function.comp_def] using distinct
      refine List.Nodup.of_map Prod.fst ?_
      simpa [Function.comp_def] using ids
    · rintro pair before pair' after rfl
      obtain ⟨claim, earlier, rfl⟩ := List.mem_map.mp before
      obtain ⟨claim', later, same⟩ := List.mem_map.mp after
      obtain ⟨row, member, is_row, is_due, _⟩ := of_claims claim' later
      obtain ⟨there, _⟩ := unchanged row member
      have due_after := inv.ahead claim earlier row.2 claim'.due
        (by rw [← (Prod.mk.inj same).1, is_row, there]) is_due
      exact absurd (Prod.mk.inj same).2.symm (Int.ne_of_lt due_after)
  · intro claim member next is_next
    rcases List.mem_append.mp member with before | after
    · exact inv.later claim before next is_next
    · obtain ⟨row, there, _, _, _, same_time, same_next⟩ := of_claims claim after
      rw [same_time]
      rw [same_next] at is_next
      exact put_off row there next (Option.join_eq_some_iff.mp is_next)
  · intro claim member automation next found is_next
    rcases List.mem_append.mp member with before | after
    · by_cases selected : claim.automation_id ∈ rows.map Prod.fst
      · obtain ⟨row, there, same⟩ := List.mem_map.mp selected
        obtain ⟨was, due, is_due, past⟩ := unchanged row there
        have earlier := inv.ahead claim before row.2 due (same ▸ was) is_due
        exact ahead row there claim.due (Int.le_trans (Int.le_of_lt earlier) past) automation next
          (same ▸ found) is_next
      · rw [get?_write, missing _ selected] at found
        exact inv.ahead claim before automation next (by simpa using found) is_next
    · obtain ⟨row, there, same, _, past, _⟩ := of_claims claim after
      exact ahead row there claim.due past automation next (same ▸ found) is_next

theorem Inv.select (inv : Inv postgresql old) {now_ns : Int} {limit : Nat}
    (orderly : old.Orderly calendar postgresql (call, .select now_ns limit)) :
    Inv postgresql ({ old with
      locked := old.locked ++ if postgresql then
        (due postgresql old now_ns limit).map Prod.fst else [] }.setPhase call
          (.selected now_ns (due postgresql old now_ns limit))) := by
  have unheld : ∀ row ∈ due postgresql old now_ns limit, ∀ other, ¬ old.Holds other row.1 := by
    rcases orderly with locks | free
    · intro row member other held
      exact (mem_due postgresql member).2.2 locks (inv.locked locks other row.1 held)
    · exact free
  have holds : ∀ other id, ({ old with locked := old.locked ++ if postgresql then
      (due postgresql old now_ns limit).map Prod.fst else [] }.setPhase call
        (.selected now_ns (due postgresql old now_ns limit))).Holds other id →
      if other = call then id ∈ (due postgresql old now_ns limit).map Prod.fst
      else old.Holds other id := by
    intro other id held
    have moved := holds_setPhase.mp held
    split at moved
    · rename_i same
      obtain ⟨_, _, working, member⟩ := moved
      obtain ⟨_, rfl⟩ := Prod.mk.inj (Option.some.inj working)
      rw [if_pos same]
      exact member
    · rename_i differs
      rw [if_neg differs]
      exact moved
  have mine : ∀ other id, old.Holds other id →
      id ∉ (due postgresql old now_ns limit).map Prod.fst := by
    intro other id held found
    obtain ⟨row, member, rfl⟩ := List.mem_map.mp found
    exact unheld row member other held
  refine ⟨⟨inv.once, inv.later⟩, ?_, ?_, ?_, ?_, inv.ahead⟩
  · intro other later_ns rows working
    rw [calls_setPhase] at working
    split at working
    · obtain ⟨_, rfl⟩ := Prod.mk.inj (Option.some.inj working)
      exact due_distinct postgresql old now_ns limit
    · exact inv.distinct other later_ns rows working
  · intro other later_ns rows working row member
    rw [calls_setPhase] at working
    split at working
    · obtain ⟨rfl, rfl⟩ := Prod.mk.inj (Option.some.inj working)
      obtain ⟨there, is_due, _⟩ := mem_due postgresql member
      exact ⟨there, is_due⟩
    · exact inv.unchanged other later_ns rows working row member
  · intro first second id one two
    have one := holds first id one
    have two := holds second id two
    split at one
    · rename_i is_first
      split at two
      · rename_i is_second
        rw [is_first, is_second]
      · exact absurd one (mine second id two)
    · split at two
      · exact absurd two (mine first id one)
      · exact inv.apart first second id one two
  · intro locks other id held
    have held := holds other id held
    split at held
    · refine List.mem_append_right _ ?_
      rw [if_pos locks]
      exact held
    · exact List.mem_append_left _ (inv.locked locks other id held)

theorem Inv.step {event : Nat × Action} (inv : Inv postgresql old)
    (orderly : old.Orderly calendar postgresql event)
    (acted : act calendar postgresql old event = some new) : Inv postgresql new := by
  obtain ⟨call, action⟩ := event
  cases phase : old.calls call <;> cases action <;> simp only [act, phase, reduceCtorEq] at acted
  case idle.select now_ns limit =>
    obtain rfl := Option.some.inj acted
    exact inv.select orderly
  case selected.fetch now_ns rows timezone_by_user_id =>
    obtain rfl := Option.some.inj acted
    refine inv.same_work ?_
    rw [phase]
    rfl
  case zoned.commit now_ns rows timezone_by_user_id moment =>
    split at acted
    · rename_i computed
      obtain rfl := Option.some.inj acted
      exact inv.commit phase orderly computed
    · obtain rfl := Option.some.inj acted
      have works : (old.calls call).working = some (now_ns, rows) := by rw [phase]; rfl
      exact inv.let_go works rfl (fun _ _ => rfl) inv.toOnce inv.ahead

end Keep

theorem Inv.start (automations : Dict String Automation) : Inv postgresql (start automations) := by
  refine ⟨⟨List.nodup_nil, ?_⟩, ?_, ?_, ?_, ?_, ?_⟩
  · simp [System.start]
  · simp [System.start, Phase.working]
  · simp [System.start, Phase.working]
  · simp [System.start, Phase.working, Holds]
  · simp [System.start, Phase.working, Holds]
  · simp [System.start]

theorem orderly_commit_of_monotone {system : System} {call : Nat} {moment : String → Int}
    (monotone : ∀ tz now later, now ≤ later → calendar.clock tz now ≤ calendar.clock tz later)
    (current : ∀ now_ns rows timezone_by_user_id,
      system.calls call = .zoned now_ns rows timezone_by_user_id →
        ∀ row ∈ rows, now_ns ≤ moment row.1) :
    system.Orderly calendar postgresql (call, .commit moment) := by
  intro now_ns rows timezone_by_user_id zoned row member reading tz gives earlier before
  have shows := monotone tz earlier (moment row.1)
    (Int.le_trans before (current now_ns rows timezone_by_user_id zoned row member))
  exact Int.lt_of_le_of_lt shows (calendar.later _ _ _ gives)

/-- What any number of calls have returned, in every state of every orderly run. -/
theorem claimed_once {automations : Dict String Automation} {events : List (Nat × Action)}
    {final : System}
    (orderly : Runs.Always (fun earlier event => ∀ old,
      run calendar postgresql (System.start automations) earlier = some old →
        old.Orderly calendar postgresql event) events)
    (ran : run calendar postgresql (System.start automations) events = some final) :
    final.Once :=
  (Runs.foldlM_invariant (Inv postgresql) (fun _ _ _ inv good acted => inv.step good acted)
    (Inv.start postgresql automations) orderly ran).toOnce

end Once

def halfHour : Int := 1800000000000

def greenwich : Calendar where
  clock _ now := now
  stamp _ reading := reading
  after s now :=
    if s = "RRULE:FREQ=MINUTELY;INTERVAL=30" then some (some ((now / halfHour + 1) * halfHour))
    else none
  shown _ reading := Int.le_refl reading
  later := by
    intro s now reading gives
    split at gives
    · obtain rfl := Option.some.inj (Option.some.inj gives)
      unfold halfHour
      omega
    · cases gives

def autumn : Calendar where
  clock _ now := if now < 6 * halfHour then now else now - 2 * halfHour
  stamp _ reading := if reading < 6 * halfHour then reading else reading + 2 * halfHour
  after := greenwich.after
  shown := by
    intro tz reading
    unfold halfHour
    omega
  later := greenwich.later

def dueRows : Dict String Automation :=
  Dict.empty.set "digest" ⟨"ada", "RRULE:FREQ=MINUTELY;INTERVAL=30", true, none, some 0⟩

def overlapping (now_ns : Int) : List (Nat × Action) :=
  [(0, .select now_ns 10), (1, .select now_ns 10), (0, .fetch fun _ => none),
    (1, .fetch fun _ => none), (0, .commit fun _ => now_ns), (1, .commit fun _ => now_ns)]

theorem orderly_commit_greenwich {postgresql : Bool} {events : List (Nat × Action)} {call : Nat}
    {now_ns : Int} (since : (run greenwich postgresql (start dueRows) events).map
      (fun system => (system.calls call).working.map Prod.fst) = some (some now_ns)) :
    ∀ old, run greenwich postgresql (start dueRows) events = some old →
      old.Orderly greenwich postgresql (call, .commit fun _ => now_ns) := by
  intro old reached
  refine orderly_commit_of_monotone greenwich postgresql (fun _ _ _ before => before) ?_
  intro time rows timezone_by_user_id zoned row member
  rw [reached, Option.map_some, zoned] at since
  exact Int.le_of_eq (Option.some.inj (Option.some.inj since))

theorem overlapping_orderly : Runs.Always (fun earlier event => ∀ old,
    run greenwich true (start dueRows) earlier = some old → old.Orderly greenwich true event)
      (overlapping 7) := by
  simp only [overlapping, Runs.always_cons, Runs.always_nil, and_true]
  refine ⟨?_, ?_, ?_, ?_, ?_, ?_⟩
  · exact fun _ _ => .inl rfl
  · exact fun _ _ => .inl rfl
  · exact fun _ _ => trivial
  · exact fun _ _ => trivial
  · exact orderly_commit_greenwich (by decide)
  · exact orderly_commit_greenwich (by decide +kernel)

theorem overlapping_claimed_once : ∃ final,
    run greenwich true (start dueRows) (overlapping 7) = some final ∧
      final.claims = [⟨"digest", 0, 7, some halfHour⟩] ∧ final.Once := by
  have claims : (run greenwich true (start dueRows) (overlapping 7)).map System.claims =
      some [⟨"digest", 0, 7, some halfHour⟩] := by decide +kernel
  obtain ⟨final, ran, same⟩ := Option.map_eq_some_iff.mp claims
  exact ⟨final, ran, same, claimed_once greenwich true overlapping_orderly ran⟩

def repeatedHour : List (Nat × Action) :=
  [(0, .select (13 * (halfHour / 2)) 10), (0, .fetch fun _ => none),
    (0, .commit fun _ => 13 * (halfHour / 2)), (1, .select (13 * (halfHour / 2) + 1) 10),
    (1, .fetch fun _ => none), (1, .commit fun _ => 13 * (halfHour / 2) + 1),
    (2, .select (13 * (halfHour / 2) + 2) 10), (2, .fetch fun _ => none),
    (2, .commit fun _ => 13 * (halfHour / 2) + 2)]

/-- Without row locks both workers return the automation for the one time it was due. With them,
an automation that is put off in the repeated hour is due in the past, and returned again. -/
theorem not_claimed_once :
    (¬ ∀ calendar automations events final,
      run calendar false (start automations) events = some final → final.Once) ∧
    (¬ ∀ calendar automations events final,
      run calendar true (start automations) events = some final → final.Once) := by
  constructor
  · intro once
    have claims : (run greenwich false (start dueRows) (overlapping 7)).map System.claims =
        some [⟨"digest", 0, 7, some halfHour⟩, ⟨"digest", 0, 7, some halfHour⟩] := by
      decide +kernel
    obtain ⟨final, ran, same⟩ := Option.map_eq_some_iff.mp claims
    have distinct := (once _ _ _ _ ran).once
    rw [same] at distinct
    exact absurd distinct (by decide)
  · intro once
    have claims : (run autumn true (start dueRows) repeatedHour).map
        (fun final => final.claims.map (fun claim => (claim.automation_id, claim.due))) =
          some [("digest", 0), ("digest", 5 * halfHour), ("digest", 5 * halfHour)] := by
      decide +kernel
    obtain ⟨final, ran, same⟩ := Option.map_eq_some_iff.mp claims
    have distinct := (once _ _ _ _ ran).once
    rw [same] at distinct
    exact absurd distinct (by decide)

end System

end OpenWebui.Automations
