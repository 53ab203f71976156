import Mathlib.Data.List.Nodup

/-! The first of ever longer names that is not taken. -/

namespace OpenWebui

universe u

variable {κ : Type u} [DecidableEq κ] (next : κ → κ) (taken : List κ)

def firstFree : Nat → κ → κ
  | 0, name => name
  | fuel + 1, name => if name ∈ taken then firstFree fuel (next name) else name

variable {next taken}

theorem firstFree_of_free {fuel : Nat} {name : κ} (free : name ∉ taken) :
    firstFree next taken fuel name = name := by
  cases fuel with
  | zero => rfl
  | succ fuel => exact if_neg free

private theorem firstFree_free_from {size : κ → Nat} (grows : ∀ name, size name < size (next name)) :
    ∀ (fuel : Nat) (tried : List κ) (name : κ), tried.Nodup → tried ⊆ taken →
      (∀ earlier ∈ tried, size earlier < size name) → taken.length ≤ fuel + tried.length →
        firstFree next taken fuel name ∉ taken := by
  intro fuel
  induction fuel with
  | zero =>
    -- all the names that are taken were tried before this one
    intro tried name distinct inside smaller enough member
    have fresh : name ∉ tried := fun again => Nat.lt_irrefl _ (smaller name again)
    have longer : (name :: tried).length ≤ taken.length :=
      (List.nodup_cons.mpr ⟨fresh, distinct⟩).length_le_of_subset
        (List.cons_subset.mpr ⟨member, inside⟩)
    simp only [List.length_cons] at longer
    omega
  | succ fuel ih =>
    intro tried name distinct inside smaller enough
    unfold firstFree
    split
    · rename_i member
      have fresh : name ∉ tried := fun again => Nat.lt_irrefl _ (smaller name again)
      refine ih (name :: tried) (next name) (List.nodup_cons.mpr ⟨fresh, distinct⟩)
        (List.cons_subset.mpr ⟨member, inside⟩) ?_ (by simp only [List.length_cons]; omega)
      intro earlier present
      rcases List.mem_cons.mp present with rfl | before
      · exact grows _
      · exact Nat.lt_trans (smaller earlier before) (grows name)
    · assumption

theorem firstFree_free (size : κ → Nat) (grows : ∀ name, size name < size (next name)) {fuel : Nat}
    (enough : taken.length ≤ fuel) (name : κ) : firstFree next taken fuel name ∉ taken :=
  firstFree_free_from grows fuel [] name List.nodup_nil (by simp) (by simp) (by simpa using enough)

end OpenWebui
