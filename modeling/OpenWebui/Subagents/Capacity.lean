import OpenWebui.Base.Runs
import OpenWebui.Base.Slots
import OpenWebui.Subagents.Delegate

/-! Capacity is conserved over orderly runs: no more sub-agents execute than the limits allow, and
every slot taken is given back once. -/

namespace OpenWebui.Subagents

namespace Delegation

/-- The slot is taken and has yet to be given back: by the call, by the child, or by the call once
its registration has failed. -/
def Holds (delegation : Delegation) : Prop :=
  delegation.slot = true ∧ (delegation.call = .creating ∨ delegation.child = .scheduled ∨
    delegation.Executing ∨ delegation.child = .unstarted ∧ delegation.call = .registering)

instance (delegation : Delegation) : Decidable delegation.Holds :=
  inferInstanceAs (Decidable (_ ∧ _))

/-- A call with a slot is not cancelled while it creates the chat, and its registration fails
exactly when its child was cancelled before its first step. -/
def Orderly (delegation : Delegation) : Event → Prop
  | .cancelCall => delegation.call ≠ .creating ∧
      (delegation.call = .registering → delegation.child ≠ .unstarted)
  | .cancelUnstarted => delegation.call = .registering
  | .register => delegation.child ≠ .unstarted
  | .failRegister => delegation.child = .unstarted
  | _ => True

/-- What a delegation has at every moment. -/
structure Sound (limits : Limits) (delegation : Delegation) : Prop where
  background : delegation.background = true → delegation.slot = true
  waiting : delegation.call = .waiting → delegation.slot = false ∧ delegation.child = .absent
  creating : delegation.call = .creating → delegation.child = .absent
  slotless : delegation.slot = false → delegation.child = .absent ∧
    (delegation.call = .waiting ∨ delegation.call = .returned) ∨ limits.max_concurrent.value = -1

/-- What an effect says about the slot of a delegation before and after it. -/
def Accounts (old new : Delegation) : Effect → Prop
  | .none => new.slot = old.slot ∧ (new.Holds ↔ old.Holds)
  | .take => old.background = false ∧ old.slot = false ∧ new.slot = true ∧ new.Holds
  | .give => new.slot = old.slot ∧ (old.slot = true → old.Holds) ∧ ¬ new.Holds

theorem next_background {old new : Delegation} {event : Event} {effect : Effect}
    (moved : old.next event = some (new, effect)) : new.background = old.background := by
  cases event <;>
    simp only [next, Option.ite_none_right_eq_some, Option.some.injEq, Prod.mk.injEq] at moved <;>
    obtain ⟨_, rfl, rfl⟩ := moved <;> rfl

theorem Sound.next {limits : Limits} {old new : Delegation} {event : Event} {effect : Effect}
    (sound : old.Sound limits) (moved : old.next event = some (new, effect)) :
    new.Sound limits := by
  obtain ⟨background, waiting, creating, slotless⟩ := sound
  cases event <;>
    simp only [Delegation.next, Option.ite_none_right_eq_some, Option.some.injEq,
      Prod.mk.injEq] at moved <;>
    obtain ⟨at_event, rfl, rfl⟩ := moved <;>
    constructor <;> grind [dispatched]

theorem next_accounts {limits : Limits} {old new : Delegation} {event : Event} {effect : Effect}
    (sound : old.Sound limits) (orderly : old.slot = true → old.Orderly event)
    (moved : old.next event = some (new, effect)) : Accounts old new effect := by
  obtain ⟨background, waiting, creating, _⟩ := sound
  cases event <;>
    simp only [next, Option.ite_none_right_eq_some, Option.some.injEq, Prod.mk.injEq] at moved <;>
    obtain ⟨at_event, rfl, rfl⟩ := moved
  case acquire =>
    obtain ⟨free, _⟩ := waiting at_event
    refine ⟨?_, free, rfl, rfl, .inl rfl⟩
    by_contra runs
    simp [background (by simpa using runs)] at free
  case createChat registers => exact ⟨rfl, by simp [Holds, at_event]⟩
  case failChat =>
    refine ⟨rfl, fun slot => ⟨slot, .inl at_event⟩, ?_⟩
    simp [Holds, Executing, creating at_event]
  case register =>
    refine ⟨rfl, ?_⟩
    by_cases slot : old.slot = true
    · have started : old.child ≠ .unstarted := orderly slot
      have moves : old.dispatched ≠ .creating := by grind [dispatched]
      simp [Holds, Executing, at_event, started, moves]
    · simp [Holds, slot]
  case failRegister =>
    refine ⟨rfl, fun slot => ?_, ?_⟩
    · have unstarted : old.child = .unstarted := orderly slot
      exact ⟨slot, .inr (.inr (.inr ⟨unstarted, at_event⟩))⟩
    · rintro ⟨slot, held⟩
      have unstarted : old.child = .unstarted := orderly slot
      simp [Executing, unstarted] at held
  case finishCall => exact ⟨rfl, by grind [Holds, Executing]⟩
  case cancelCall =>
    refine ⟨rfl, ?_⟩
    by_cases slot : old.slot = true
    · have leaves := orderly slot
      simp only [Orderly] at leaves
      grind [Holds, Executing]
    · simp [Holds, slot]
  case start => exact ⟨rfl, by simp [Holds, Executing, at_event]⟩
  case cancelUnstarted =>
    refine ⟨rfl, ?_⟩
    by_cases slot : old.slot = true
    · have registers : old.call = .registering := orderly slot
      simp [Holds, at_event, registers]
    · simp [Holds, slot]
  case raise => exact ⟨rfl, by simp [Holds, Executing, at_event]⟩
  case finish =>
    refine ⟨rfl, fun slot => ⟨slot, .inr (.inr (.inl at_event))⟩, ?_⟩
    rintro ⟨_, created | held⟩
    · have absent : old.child = .absent := creating created
      simp [absent] at at_event
    · simp [Executing] at held

end Delegation

/-- A delegation that holds a foreground or a background slot. -/
def HoldsSlot (delegations : Dict String Delegation) (background : Bool)
    (delegation_id : String) : Prop :=
  ∃ delegation, delegations.get? delegation_id = some delegation ∧
    delegation.background = background ∧ delegation.Holds

section HoldsSlot

variable {delegations : Dict String Delegation} {delegation_id other : String}
  {delegation new : Delegation} {background : Bool}

theorem holdsSlot_of_found (found : delegations.get? delegation_id = some delegation) :
    HoldsSlot delegations background delegation_id ↔
      delegation.background = background ∧ delegation.Holds := by
  simp [HoldsSlot, found]

theorem not_holdsSlot_of_missing (missing : delegations.get? delegation_id = none) :
    ¬ HoldsSlot delegations background delegation_id := by
  simp [HoldsSlot, missing]

theorem holdsSlot_set_self :
    HoldsSlot (delegations.set delegation_id new) background delegation_id ↔
      new.background = background ∧ new.Holds := by
  simp [HoldsSlot]

theorem holdsSlot_set_of_ne (apart : other ≠ delegation_id) :
    HoldsSlot (delegations.set delegation_id new) background other ↔
      HoldsSlot delegations background other := by
  simp [HoldsSlot, Ne.symm apart]

theorem holdsSlot_set_same
    (same : new.background = background ∧ new.Holds ↔
      HoldsSlot delegations background delegation_id) (other : String) :
    HoldsSlot (delegations.set delegation_id new) background other ↔
      HoldsSlot delegations background other := by
  by_cases this : other = delegation_id
  · subst this
    exact holdsSlot_set_self.trans same
  · exact holdsSlot_set_of_ne this

theorem holdsSlot_set_insert {holders : Finset String}
    (held : ∀ other, other ∈ holders ↔ HoldsSlot delegations background other)
    (kind : new.background = background) (holds : new.Holds) (other : String) :
    other ∈ insert delegation_id holders ↔
      HoldsSlot (delegations.set delegation_id new) background other := by
  by_cases this : other = delegation_id
  · subst this
    rw [holdsSlot_set_self]
    exact iff_of_true (Finset.mem_insert_self _ _) ⟨kind, holds⟩
  · rw [holdsSlot_set_of_ne this, ← held, Finset.mem_insert]
    exact or_iff_right this

theorem holdsSlot_set_erase {holders : Finset String}
    (held : ∀ other, other ∈ holders ↔ HoldsSlot delegations background other)
    (gone : ¬ new.Holds) (other : String) :
    other ∈ holders.erase delegation_id ↔
      HoldsSlot (delegations.set delegation_id new) background other := by
  by_cases this : other = delegation_id
  · subst this
    rw [holdsSlot_set_self]
    exact iff_of_false (Finset.notMem_erase _ _) (fun both => gone both.2)
  · rw [holdsSlot_set_of_ne this, ← held, Finset.mem_erase]
    exact and_iff_right this

end HoldsSlot

/-- The semaphore counts the free slots of a pool that the foreground delegations hold. -/
def Pooled (limits : Limits) (semaphore : Option Nat) (delegations : Dict String Delegation) :
    Prop :=
  ∃ pool : Slots String, pool.size = limits.max_concurrent.value.toNat ∧
    pool.free = semaphore.getD pool.size ∧
      ∀ delegation_id, delegation_id ∈ pool.holders ↔ HoldsSlot delegations false delegation_id

theorem Pooled.same {limits : Limits} {semaphore : Option Nat} {old new : Dict String Delegation}
    (pooled : Pooled limits semaphore old)
    (holds : ∀ other, HoldsSlot new false other ↔ HoldsSlot old false other) :
    Pooled limits semaphore new := by
  obtain ⟨pool, size, free, holders⟩ := pooled
  exact ⟨pool, size, free, fun other => (holders other).trans (holds other).symm⟩

namespace System

/-- What every step of an orderly run keeps. -/
structure Accounted (limits : Limits) (system : System) : Prop where
  sound : ∀ delegation_id delegation, system.delegations.get? delegation_id = some delegation →
    delegation.Sound limits
  pooled : Pooled limits system.foreground_semaphore system.delegations
  limited : ∀ value, system.foreground_semaphore = some value →
    limits.max_concurrent.value ≠ -1
  active : ∀ delegation_id,
    delegation_id ∈ system.background_active ↔ HoldsSlot system.delegations true delegation_id
  capacity : limits.max_async.value = -1 ∨
    (system.background_active.card : Int) ≤ limits.max_async.value
  unreleased : ∀ delegation_id, system.delegations.get? delegation_id = none →
    system.released.count delegation_id = 0
  released : ∀ delegation_id delegation,
    system.delegations.get? delegation_id = some delegation →
      system.released.count delegation_id =
        if delegation.slot = true ∧ ¬ delegation.Holds then 1 else 0

theorem accounted_empty (limits : Limits) : empty.Accounted limits where
  sound := fun _ _ found => by cases found
  pooled := ⟨.full _, rfl, rfl, fun _ => by simp [Slots.full, HoldsSlot, empty]⟩
  limited := fun _ made => by cases made
  active := fun _ => by simp [HoldsSlot, empty]
  capacity := by
    rcases limits.max_async.valid with unlimited | limited
    · exact .inl unlimited
    · right
      simp only [empty, Finset.card_empty]
      omega
  unreleased := fun _ _ => rfl
  released := fun _ _ found => by cases found

theorem Accounted.entered {limits : Limits} {system applied : System} {delegation_id : String}
    {new : Delegation} (accounted : system.Accounted limits)
    (delegations : applied.delegations = system.delegations) (sound : new.Sound limits)
    (others : ∀ other, other ≠ delegation_id →
      applied.released.count other = system.released.count other)
    (own : applied.released.count delegation_id =
      if new.slot = true ∧ ¬ new.Holds then 1 else 0)
    (pooled : Pooled limits applied.foreground_semaphore (system.delegations.set delegation_id new))
    (limited : ∀ value, applied.foreground_semaphore = some value →
      limits.max_concurrent.value ≠ -1)
    (active : ∀ other, other ∈ applied.background_active ↔
      HoldsSlot (system.delegations.set delegation_id new) true other)
    (capacity : limits.max_async.value = -1 ∨
      (applied.background_active.card : Int) ≤ limits.max_async.value) :
    (applied.enter delegation_id new).Accounted limits := by
  rw [← delegations] at pooled active
  refine ⟨?_, pooled, limited, active, capacity, ?_, ?_⟩
  · intro other delegation found
    simp only [enter, Dict.get?_set, delegations] at found
    split at found
    · obtain rfl := Option.some.inj found
      exact sound
    · exact accounted.sound other delegation found
  · intro other missing
    simp only [enter, Dict.get?_set, delegations] at missing
    split at missing
    · cases missing
    · rename_i apart
      exact (others other (Ne.symm apart)).trans (accounted.unreleased other missing)
  · intro other delegation found
    simp only [enter, Dict.get?_set, delegations] at found
    split at found
    · rename_i same
      subst same
      obtain rfl := Option.some.inj found
      exact own
    · rename_i apart
      exact (others other (Ne.symm apart)).trans (accounted.released other delegation found)

section Effects

variable {limits : Limits} {system : System} {delegation_id : String} {old new : Delegation}

theorem Accounted.keep (accounted : system.Accounted limits)
    (found : system.delegations.get? delegation_id = some old)
    (background : new.background = old.background) (sound : new.Sound limits)
    (accounts : Delegation.Accounts old new .none) :
    (system.enter delegation_id new).Accounted limits := by
  obtain ⟨slot, holds⟩ := accounts
  have same : ∀ kind other,
      HoldsSlot (system.delegations.set delegation_id new) kind other ↔
        HoldsSlot system.delegations kind other := by
    intro kind
    refine holdsSlot_set_same ?_
    rw [holdsSlot_of_found found, background, holds]
  refine accounted.entered rfl sound (fun _ _ => rfl) ?_ (accounted.pooled.same (same false))
    accounted.limited ?_ accounted.capacity
  · rw [accounted.released _ _ found]
    simp only [slot, holds]
  · exact fun other => (accounted.active other).trans (same true other).symm

theorem Accounted.take {applied : System} (accounted : system.Accounted limits)
    (found : system.delegations.get? delegation_id = some old)
    (background : new.background = old.background) (sound : new.Sound limits)
    (accounts : Delegation.Accounts old new .take) (acquired : system.acquire = some applied) :
    (applied.enter delegation_id new).Accounted limits := by
  obtain ⟨foreground, slotless, slot, holds⟩ := accounts
  have unheld : ∀ kind, ¬ HoldsSlot system.delegations kind delegation_id := by
    intro kind held
    rw [holdsSlot_of_found found] at held
    cases slotless.symm.trans held.2.1
  unfold acquire at acquired
  split at acquired
  case h_2 => cases acquired
  rename_i value counter
  obtain rfl := Option.some.inj acquired
  refine accounted.entered rfl sound (fun _ _ => rfl) ?_ ?_ ?_ ?_ accounted.capacity
  · rw [accounted.released _ _ found]
    simp [slotless, holds]
  · obtain ⟨pool, size, free, holders⟩ := accounted.pooled
    rw [counter, Option.getD_some] at free
    have fresh : delegation_id ∉ pool.holders := fun held => unheld false ((holders _).mp held)
    refine ⟨pool.take delegation_id (by omega) fresh, size, ?_, ?_⟩
    · simp [Slots.take, free]
    · exact holdsSlot_set_insert holders (background.trans foreground) holds
  · exact fun _ _ => accounted.limited _ counter
  · intro other
    refine (accounted.active other).trans (holdsSlot_set_same ?_ other).symm
    refine iff_of_false (fun both => ?_) (unheld true)
    cases (background.trans foreground).symm.trans both.1

theorem Accounted.give (accounted : system.Accounted limits)
    (found : system.delegations.get? delegation_id = some old)
    (background : new.background = old.background) (sound : new.Sound limits)
    (accounts : Delegation.Accounts old new .give) :
    ((system.release delegation_id old).enter delegation_id new).Accounted limits := by
  obtain ⟨slot, held, gone⟩ := accounts
  have others : ∀ other, other ≠ delegation_id →
      (delegation_id :: system.released).count other = system.released.count other :=
    fun other apart => List.count_cons_of_ne (Ne.symm apart)
  have own : old.slot = true → (delegation_id :: system.released).count delegation_id =
      if new.slot = true ∧ ¬ new.Holds then 1 else 0 := by
    intro taken
    rw [List.count_cons_self, accounted.released _ _ found, slot]
    simp [taken, held taken, gone]
  -- the other kind of slot is held neither before nor after
  have elsewhere : ∀ kind, old.background ≠ kind → ∀ other,
      HoldsSlot (system.delegations.set delegation_id new) kind other ↔
        HoldsSlot system.delegations kind other := by
    intro kind apart
    refine holdsSlot_set_same ?_
    rw [holdsSlot_of_found found, background]
    exact iff_of_false (fun both => apart both.1) (fun both => apart both.1)
  unfold release
  split
  · rename_i behind
    have taken : old.slot = true := (accounted.sound _ _ found).background behind
    refine accounted.entered rfl sound others (own taken) ?_ accounted.limited ?_ ?_
    · exact accounted.pooled.same (elsewhere false (by simp [behind]))
    · exact holdsSlot_set_erase accounted.active gone
    · refine accounted.capacity.imp_right (fun bounded => ?_)
      have fewer : (system.background_active.erase delegation_id).card ≤
        system.background_active.card := Finset.card_erase_le
      dsimp only
      omega
  · rename_i front
    have foreground : old.background = false := by simpa using front
    split
    · rename_i taken
      obtain ⟨pool, size, free, holders⟩ := accounted.pooled
      have holder : delegation_id ∈ pool.holders :=
        (holders _).mpr ⟨old, found, foreground, held taken⟩
      refine accounted.entered rfl sound others (own taken) ?_ ?_ ?_ accounted.capacity
      · refine ⟨pool.give delegation_id holder, size, ?_, holdsSlot_set_erase holders gone⟩
        have busy := Finset.card_pos.mpr ⟨_, holder⟩
        have balanced := pool.balanced
        cases semaphore : system.foreground_semaphore with
        | none =>
          rw [semaphore, Option.getD_none] at free
          omega
        | some value => simpa [Slots.give, semaphore] using free
      · intro value counter
        obtain ⟨before, semaphore, _⟩ := Option.map_eq_some_iff.mp counter
        exact accounted.limited before semaphore
      · intro other
        exact (accounted.active other).trans (elsewhere true (by simp [foreground]) other).symm
    · rename_i slotless
      refine accounted.keep found background sound ⟨slot, ?_⟩
      exact iff_of_false gone (fun holds => slotless holds.1)

end Effects

theorem Accounted.delegate {limits : Limits} {old new : System} {delegation_id : String}
    {background enabled : Bool} (accounted : old.Accounted limits)
    (delegated : old.delegate delegation_id background enabled limits = some new) :
    new.Accounted limits := by
  unfold System.delegate at delegated
  split at delegated
  · cases delegated
  rename_i fresh
  have missing : old.delegations.get? delegation_id = none := Dict.get?_eq_none.mpr fresh
  have unheld : ∀ kind, ¬ HoldsSlot old.delegations kind delegation_id :=
    fun _ => not_holdsSlot_of_missing missing
  have unreleased := accounted.unreleased delegation_id missing
  -- a foreground call has no slot yet, whatever it has made of the semaphore
  have slotless : ∀ call, ∀ kind, ∀ other, HoldsSlot (old.delegations.set delegation_id
      ⟨false, limits, call, .absent, false⟩) kind other ↔ HoldsSlot old.delegations kind other := by
    intro call kind
    refine holdsSlot_set_same (iff_of_false (fun both => ?_) (unheld kind))
    cases both.2.1
  split at delegated
  · split at delegated
    · obtain rfl := Option.some.inj delegated
      exact accounted
    rename_i admitted
    obtain rfl := Option.some.inj delegated
    have holds : Delegation.Holds ⟨true, limits, .creating, .absent, true⟩ := ⟨rfl, .inl rfl⟩
    refine accounted.entered rfl ?_ (fun _ _ => rfl) ?_ ?_ accounted.limited ?_ ?_
    · constructor <;> simp
    · simpa [holds] using unreleased
    · refine accounted.pooled.same (holdsSlot_set_same (iff_of_false ?_ (unheld false)))
      exact fun both => by cases both.1
    · exact holdsSlot_set_insert accounted.active rfl holds
    · by_cases unlimited : limits.max_async.value = -1
      · exact .inl unlimited
      right
      have absent : delegation_id ∉ old.background_active :=
        fun member => unheld true ((accounted.active _).mp member)
      rw [Finset.card_insert_of_notMem absent]
      push Not at admitted
      have room := admitted.2 unlimited
      omega
  · split at delegated
    · rename_i unlimited
      obtain rfl := Option.some.inj delegated
      refine accounted.entered rfl ?_ (fun _ _ => rfl) ?_
        (accounted.pooled.same (slotless .creating false)) accounted.limited ?_ accounted.capacity
      · constructor <;> simp [unlimited]
      · simpa using unreleased
      · exact fun other => (accounted.active other).trans (slotless .creating true other).symm
    · rename_i limited
      obtain rfl := Option.some.inj delegated
      refine accounted.entered rfl ?_ (fun _ _ => rfl) ?_ ?_ (fun _ _ => limited) ?_
        accounted.capacity
      · constructor <;> simp
      · simpa using unreleased
      · obtain ⟨pool, size, free, holders⟩ := accounted.pooled
        refine ⟨pool, size, ?_, fun other => (holders other).trans (slotless _ false other).symm⟩
        rw [Option.getD_some, ← size]
        exact free
      · exact fun other => (accounted.active other).trans (slotless .waiting true other).symm

/-- An action is orderly: a call reads the limits of the run, and an event is orderly for the
delegation, if that has taken a slot. -/
def Orderly (limits : Limits) (system : System) : Action → Prop
  | .delegate _ _ _ configured => configured = limits
  | .step delegation_id event => ∀ delegation,
      system.delegations.get? delegation_id = some delegation → delegation.slot = true →
        delegation.Orderly event

theorem Accounted.act {limits : Limits} {old new : System} {action : Action}
    (accounted : old.Accounted limits) (orderly : old.Orderly limits action)
    (acted : old.act action = some new) : new.Accounted limits := by
  cases action with
  | delegate delegation_id background enabled configured =>
    obtain rfl : configured = limits := orderly
    exact accounted.delegate acted
  | step delegation_id event =>
    simp only [System.act, System.step] at acted
    split at acted
    · cases acted
    rename_i before found
    split at acted
    · cases acted
    rename_i later effect moved
    obtain ⟨applied, effected, rfl⟩ := Option.map_eq_some_iff.mp acted
    have background := Delegation.next_background moved
    have sound := (accounted.sound _ _ found).next moved
    have accounts := Delegation.next_accounts (accounted.sound _ _ found) (orderly _ found) moved
    cases effect with
    | none =>
      obtain rfl := Option.some.inj effected
      exact accounted.keep found background sound accounts
    | take => exact accounted.take found background sound accounts effected
    | give =>
      obtain rfl := Option.some.inj effected
      exact accounted.give found background sound accounts

/-- No delegation goes on. -/
def Idle (system : System) : Prop :=
  ∀ delegation_id delegation, system.delegations.get? delegation_id = some delegation →
    delegation.Over

/-- Capacity is conserved: the limits bound what executes, no slot is released twice, and when
nothing runs every slot has been released and all of them are free. -/
structure Conserved (limits : Limits) (system : System) : Prop where
  foreground : limits.max_concurrent.value = -1 ∨
    ((system.executing false).card : Int) ≤ limits.max_concurrent.value
  background : limits.max_async.value = -1 ∨
    ((system.executing true).card : Int) ≤ limits.max_async.value
  released : ∀ delegation_id delegation,
    system.delegations.get? delegation_id = some delegation →
      system.released.count delegation_id ≤ 1
  idle : system.Idle →
    (∀ delegation_id delegation, system.delegations.get? delegation_id = some delegation →
      delegation.slot = true → system.released.count delegation_id = 1) ∧
    system.background_active = ∅ ∧
    ∀ value, system.foreground_semaphore = some value →
      (value : Int) = limits.max_concurrent.value

end System

theorem Delegation.Over.not_holds {delegation : Delegation} (ended : delegation.Over) :
    ¬ delegation.Holds := by
  obtain ⟨returned, unscheduled, stopped⟩ := ended
  rintro ⟨_, created | scheduled | executes | ⟨_, registers⟩⟩
  · cases returned.symm.trans created
  · exact unscheduled scheduled
  · exact stopped executes
  · cases returned.symm.trans registers

namespace System

theorem Accounted.conserved {limits : Limits} {system : System}
    (accounted : system.Accounted limits) : system.Conserved limits := by
  constructor
  case foreground =>
    by_cases unlimited : limits.max_concurrent.value = -1
    · exact .inl unlimited
    right
    obtain ⟨pool, size, _, holders⟩ := accounted.pooled
    have held : system.executing false ⊆ pool.holders := by
      intro delegation_id executes
      obtain ⟨delegation, found, front, executing⟩ := mem_executing.mp executes
      refine (holders _).mpr ⟨delegation, found, front, ?_, .inr (.inr (.inl executing))⟩
      by_contra slotless
      rcases (accounted.sound _ _ found).slotless (by simpa using slotless) with out | none
      · simp [Delegation.Executing, out.1] at executing
      · exact unlimited none
    have bounded := (Finset.card_le_card held).trans pool.card_holders_le
    have limited := limits.max_concurrent.valid.resolve_left unlimited
    omega
  case background =>
    refine accounted.capacity.imp_right (fun bounded => ?_)
    have held : system.executing true ⊆ system.background_active := by
      intro delegation_id executes
      obtain ⟨delegation, found, behind, executing⟩ := mem_executing.mp executes
      have slot := (accounted.sound _ _ found).background behind
      exact (accounted.active _).mpr ⟨delegation, found, behind, slot, .inr (.inr (.inl executing))⟩
    have fewer := Finset.card_le_card held
    omega
  case released =>
    intro delegation_id delegation found
    rw [accounted.released _ _ found]
    split <;> omega
  case idle =>
    intro idle
    have empty : ∀ kind delegation_id, ¬ HoldsSlot system.delegations kind delegation_id := by
      rintro kind delegation_id ⟨delegation, found, _, holds⟩
      exact (idle _ _ found).not_holds holds
    refine ⟨?_, ?_, ?_⟩
    · intro delegation_id delegation found slot
      rw [accounted.released _ _ found]
      exact if_pos ⟨slot, (idle _ _ found).not_holds⟩
    · refine Finset.eq_empty_of_forall_notMem (fun delegation_id member => ?_)
      exact empty true _ ((accounted.active _).mp member)
    · intro value counter
      obtain ⟨pool, size, free, holders⟩ := accounted.pooled
      have unheld : pool.holders = ∅ := by
        refine Finset.eq_empty_of_forall_notMem (fun delegation_id member => ?_)
        exact empty false _ ((holders _).mp member)
      have full := Slots.free_eq_size unheld
      have limited := limits.max_concurrent.valid.resolve_left (accounted.limited _ counter)
      rw [counter, Option.getD_some] at free
      omega

/-- The action is orderly in the state the earlier actions lead to. -/
def OrderlyAfter (limits : Limits) (earlier : List Action) (action : Action) : Prop :=
  ∀ system, empty.run earlier = some system → system.Orderly limits action

theorem accounted_after {limits : Limits} {actions : List Action} {system : System}
    (ran : empty.run actions = some system)
    (orderly : Runs.Always (OrderlyAfter limits) actions) : system.Accounted limits :=
  Runs.foldlM_invariant (Accounted limits)
    (fun _ _ _ accounted orderly acted => accounted.act orderly acted) (accounted_empty limits)
    orderly ran

/-- In every state of an orderly run capacity is conserved. -/
theorem capacity_conserved {limits : Limits} {actions : List Action} {system : System}
    (ran : empty.run actions = some system)
    (orderly : Runs.Always (OrderlyAfter limits) actions) : system.Conserved limits :=
  (accounted_after ran orderly).conserved

end System

def single : Limits := ⟨.read (some 1), .read (some 1)⟩

theorem System.idle_iff {system : System} :
    system.Idle ↔ ∀ entry ∈ system.delegations.entries, entry.2.Over :=
  ⟨fun idle _ member => idle _ _ (Dict.mem_entries_iff.mp member),
    fun ended _ _ found => ended _ (Dict.mem_entries_iff.mpr found)⟩

instance (system : System) : Decidable system.Idle := decidable_of_iff _ system.idle_iff.symm

/-- What a run leaves: whether it is idle, the counter of the semaphore, the active background
ids, and how many foreground sub-agents execute. -/
def leaves (actions : List Action) : Option (Bool × Option Nat × Finset String × Nat) :=
  (System.empty.run actions).map (fun system =>
    (decide system.Idle, system.foreground_semaphore, system.background_active,
      (system.executing false).card))

def unstartedActions : List Action :=
  [.delegate "a" false true single, .step "a" .acquire, .step "a" (.createChat true),
    .step "a" .cancelUnstarted, .step "a" .register, .step "a" .finishCall]

def unregisteredActions : List Action :=
  [.delegate "a" false true single, .step "a" .acquire, .step "a" (.createChat true),
    .step "a" .start, .step "a" .failRegister, .delegate "b" false true single,
    .step "b" .acquire, .step "b" (.createChat true), .step "b" .start]

def cancelledActions : List Action :=
  [.delegate "a" true true single, .step "a" .cancelCall]

/-- Nothing runs and the only foreground slot is gone; two foreground sub-agents execute where one
may; nothing runs and the only background slot is gone. -/
theorem capacity_not_conserved :
    (∃ system, System.empty.run unstartedActions = some system ∧ system.Idle ∧
      system.foreground_semaphore = some 0 ∧ ¬ system.Conserved single) ∧
    (∃ system, System.empty.run unregisteredActions = some system ∧
      (system.executing false).card = 2 ∧ ¬ system.Conserved single) ∧
    ∃ system, System.empty.run cancelledActions = some system ∧ system.Idle ∧
      system.background_active = {"a"} ∧ ¬ system.Conserved single := by
  refine ⟨?_, ?_, ?_⟩
  · have left : leaves unstartedActions = some (true, some 0, ∅, 0) := by decide
    obtain ⟨system, ran, reads⟩ := Option.map_eq_some_iff.mp left
    simp only [Prod.mk.injEq, decide_eq_true_eq] at reads
    obtain ⟨idle, counter, _, _⟩ := reads
    refine ⟨system, ran, idle, counter, fun conserved => ?_⟩
    exact absurd ((conserved.idle idle).2.2 0 counter) (by decide)
  · have left : leaves unregisteredActions = some (false, some 0, ∅, 2) := by decide
    obtain ⟨system, ran, reads⟩ := Option.map_eq_some_iff.mp left
    simp only [Prod.mk.injEq] at reads
    obtain ⟨_, _, _, both⟩ := reads
    refine ⟨system, ran, both, fun conserved => ?_⟩
    exact absurd conserved.foreground (by rw [both]; decide)
  · have left : leaves cancelledActions = some (true, none, {"a"}, 0) := by decide
    obtain ⟨system, ran, reads⟩ := Option.map_eq_some_iff.mp left
    simp only [Prod.mk.injEq, decide_eq_true_eq] at reads
    obtain ⟨idle, _, active, _⟩ := reads
    refine ⟨system, ran, idle, active, fun conserved => ?_⟩
    exact Finset.singleton_ne_empty "a" (active.symm.trans (conserved.idle idle).2.1)

def orderlyActions : List Action :=
  [.delegate "a" false true single, .step "a" .acquire, .delegate "b" true true single,
    .step "b" (.createChat true), .step "a" (.createChat true), .step "b" .start,
    .step "a" .start, .delegate "c" false true single, .step "b" .raise, .step "a" .register,
    .step "b" .register, .step "b" .finish, .step "a" .finish, .step "a" .finishCall,
    .step "c" .acquire, .step "c" .failChat]

/-- Both slots are free after it. -/
theorem orderlyActions_conserved : ∃ system, System.empty.run orderlyActions = some system ∧
    system.Idle ∧ system.foreground_semaphore = some 1 ∧ system.Conserved single := by
  have left : leaves orderlyActions = some (true, some 1, ∅, 0) := by decide
  obtain ⟨system, ran, reads⟩ := Option.map_eq_some_iff.mp left
  simp only [Prod.mk.injEq, decide_eq_true_eq] at reads
  obtain ⟨idle, counter, _, _⟩ := reads
  refine ⟨system, ran, idle, counter, System.capacity_conserved ran ?_⟩
  simp only [orderlyActions, Runs.always_cons, Runs.always_nil, and_true]
  have started : ∀ {before delegation count delegation_id child},
      System.empty.run (orderlyActions.take count) = some before →
        before.delegations.get? delegation_id = some delegation →
          (System.empty.run (orderlyActions.take count)).bind (fun system =>
            (system.delegations.get? delegation_id).map Delegation.child) = some child →
              delegation.child = child := by
    intro before delegation count delegation_id child ran found reads
    rw [ran, Option.bind_some, found, Option.map_some] at reads
    exact Option.some.inj reads
  refine ⟨?_, ?_, ?_, ?_, ?_, ?_, ?_, ?_, ?_, ?first, ?second, ?_, ?_, ?_, ?_, ?_⟩
  case first =>
    intro before ran delegation found _ unstarted
    have executes : delegation.child = .executing :=
      @started before delegation 9 "a" .executing ran found (by decide)
    cases executes.symm.trans unstarted
  case second =>
    intro before ran delegation found _ unstarted
    have fails : delegation.child = .failing :=
      @started before delegation 10 "b" .failing ran found (by decide)
    cases fails.symm.trans unstarted
  all_goals first | exact fun _ _ => rfl | exact fun _ _ _ _ _ => trivial

end OpenWebui.Subagents
