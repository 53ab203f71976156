import Mathlib.Data.List.Basic
import Mathlib.Data.List.Induction

/-! A switch that a list of orders turns on and off. -/

namespace OpenWebui.Switch

structure Order where
  value : Bool
  /-- Whether the order is announced even if it changes nothing. -/
  always : Bool

def after (start : Bool) (orders : List Order) : Bool := (orders.getLast?.map Order.value).getD start

/-- One of the orders is announced as turning the switch to the value. -/
def Announced (start : Bool) (orders : List Order) (value : Bool) : Prop :=
  ∃ before order rest, orders = before ++ order :: rest ∧ order.value = value ∧
    (order.always = true ∨ after start before ≠ value)

/-- The announcements are the difference between the start and the end. -/
def Exact (start : Bool) (orders : List Order) : Prop :=
  ∀ value, Announced start orders value ↔ start ≠ value ∧ after start orders = value

/-- No order that is announced in any case turns the switch to where it stood at the start, and
none at all does so once another one has changed it. -/
structure Straight (start : Bool) (orders : List Order) : Prop where
  needed : ∀ order ∈ orders, order.always = true → order.value ≠ start
  kept : orders.Pairwise (fun first second => first.value ≠ start → second.value ≠ start)

variable {start value : Bool} {orders : List Order} {order : Order}

@[simp] theorem after_nil : after start [] = start := rfl

@[simp] theorem after_concat : after start (orders ++ [order]) = order.value := by simp [after]

theorem not_announced_nil : ¬ Announced start [] value := by
  rintro ⟨before, order, rest, whole, -⟩
  simp at whole

theorem announced_concat :
    Announced start (orders ++ [order]) value ↔ Announced start orders value ∨
      (order.value = value ∧ (order.always = true ∨ after start orders ≠ value)) := by
  constructor
  · rintro ⟨before, found, rest, whole, turns, told⟩
    rcases List.eq_nil_or_concat' rest with rfl | ⟨between, last, rfl⟩
    · obtain ⟨rfl, same⟩ := List.append_inj' whole rfl
      rw [(List.cons.inj same).1]
      exact .inr ⟨turns, told⟩
    · rw [← List.cons_append, ← List.append_assoc] at whole
      exact .inl ⟨before, found, between, (List.append_inj' whole rfl).1, turns, told⟩
  · rintro (⟨before, found, rest, whole, turns, told⟩ | ⟨turns, told⟩)
    · exact ⟨before, found, rest ++ [order], by simp [whole], turns, told⟩
    · exact ⟨orders, order, [], rfl, turns, told⟩

theorem after_of_mem
    (kept : orders.Pairwise (fun first second => first.value ≠ start → second.value ≠ start))
    (member : order ∈ orders) (turns : order.value ≠ start) : after start orders ≠ start := by
  rcases List.eq_nil_or_concat' orders with rfl | ⟨before, last, rfl⟩
  · cases member
  · rw [after_concat]
    rcases List.mem_append.mp member with earlier | same
    · exact (List.pairwise_append.mp kept).2.2 order earlier last (List.mem_singleton_self last) turns
    · rw [← List.mem_singleton.mp same]
      exact turns

theorem exists_of_after (turned : after start orders ≠ start) :
    ∃ order ∈ orders, order.value ≠ start := by
  rcases List.eq_nil_or_concat' orders with rfl | ⟨before, last, rfl⟩
  · exact absurd rfl turned
  · rw [after_concat] at turned
    exact ⟨last, List.mem_append_right _ (List.mem_singleton_self last), turned⟩

theorem announced_of_after (changed : start ≠ value) (ends : after start orders = value) :
    Announced start orders value := by
  induction orders using List.reverseRecOn with
  | nil => exact absurd ends changed
  | append_singleton before last ih =>
    rw [announced_concat]
    by_cases there : after start before = value
    · exact .inl (ih there)
    · rw [after_concat] at ends
      exact .inr ⟨ends, .inr there⟩

theorem kept_of_quiet (quiet : ¬ Announced start orders start) :
    orders.Pairwise (fun first second => first.value ≠ start → second.value ≠ start) := by
  induction orders using List.reverseRecOn with
  | nil => exact List.Pairwise.nil
  | append_singleton before last ih =>
    rw [announced_concat, not_or] at quiet
    have kept := ih quiet.1
    refine List.pairwise_append.mpr ⟨kept, List.pairwise_singleton _ _, ?_⟩
    intro first member second final turns back
    rw [List.mem_singleton.mp final] at back
    exact quiet.2 ⟨back, .inr (after_of_mem kept member turns)⟩

theorem Straight.quiet (straight : Straight start orders) : ¬ Announced start orders start := by
  rintro ⟨before, order, rest, rfl, back, told⟩
  rcases told with always | changed
  · exact straight.needed order (by simp) always back
  · obtain ⟨first, member, turns⟩ := exists_of_after changed
    exact (List.pairwise_append.mp straight.kept).2.2 first member order List.mem_cons_self turns back

theorem exact_iff_straight : Exact start orders ↔ Straight start orders := by
  constructor
  · intro exactly
    have quiet : ¬ Announced start orders start := fun told => ((exactly start).mp told).1 rfl
    refine ⟨?_, kept_of_quiet quiet⟩
    intro order member always back
    obtain ⟨before, rest, rfl⟩ := List.append_of_mem member
    exact quiet ⟨before, order, rest, rfl, back, .inl always⟩
  · intro straight value
    constructor
    · intro told
      have changed : start ≠ value := by
        rintro rfl
        exact straight.quiet told
      refine ⟨changed, ?_⟩
      obtain ⟨before, order, rest, rfl, turns, -⟩ := told
      have listed : order ∈ before ++ order :: rest := by simp
      have ends := after_of_mem straight.kept listed (by
        rw [turns]
        exact changed.symm)
      rw [Bool.eq_not_of_ne ends, Bool.eq_not_of_ne changed, Bool.not_not]
    · rintro ⟨changed, ends⟩
      exact announced_of_after changed ends

end OpenWebui.Switch
