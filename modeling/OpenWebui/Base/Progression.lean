import Mathlib.Algebra.Order.Ring.Int
import Mathlib.Tactic.Linarith

/-! Points at equal distances from a start, and the first of them after a given one. -/

namespace OpenWebui.Progression

variable {start step now : Int}

def point (start step : Int) (k : Nat) : Int := start + k * step

def passed (start step now : Int) : Nat := ((now - start) / step + 1).toNat

variable (positive : 0 < step)

include positive in
theorem point_le_iff {k : Nat} : point start step k ≤ now ↔ k < passed start step now := by
  have bound : (k : Int) * step ≤ now - start ↔ (k : Int) ≤ (now - start) / step :=
    (Int.le_ediv_iff_mul_le positive).symm
  rw [point, passed]
  constructor
  · intro before
    have index := bound.mp (by omega)
    omega
  · intro before
    have index := bound.mpr (by omega)
    omega

include positive in
theorem lt_point_iff {k : Nat} : now < point start step k ↔ passed start step now ≤ k := by
  rw [← Int.not_le, point_le_iff positive, Nat.not_lt]

include positive in
theorem point_le_point {i j : Nat} (before : i ≤ j) : point start step i ≤ point start step j := by
  rw [point, point]
  have scaled := Int.mul_le_mul_of_nonneg_right (Int.ofNat_le.mpr before) positive.le
  omega

include positive in
theorem next_eq_iff {other : Int} (begun : start ≤ now) (other_begun : other ≤ now) :
    point start step (passed start step now) = point other step (passed other step now) ↔
      step ∣ start - other := by
  have reached : ∀ from_ : Int, from_ ≤ now →
      point from_ step (passed from_ step now) = from_ + ((now - from_) / step + 1) * step := by
    intro from_ before
    have natural : 0 ≤ (now - from_) / step := Int.ediv_nonneg (by omega) positive.le
    rw [point, passed, Int.toNat_of_nonneg (by omega)]
  rw [reached start begun, reached other other_begun]
  have split := Int.mul_ediv_add_emod (now - start) step
  have split_other := Int.mul_ediv_add_emod (now - other) step
  constructor
  · intro same
    refine ⟨(now - other) / step - (now - start) / step, ?_⟩
    rw [Int.mul_sub, Int.mul_comm step, Int.mul_comm step]
    linarith
  · rintro ⟨steps, apart⟩
    have shifted : now - other = now - start + step * steps := by omega
    rw [shifted, Int.add_mul_ediv_left _ _ (ne_of_gt positive)]
    linarith

end OpenWebui.Progression
