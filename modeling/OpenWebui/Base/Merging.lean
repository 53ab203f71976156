import Mathlib.Data.Multiset.Lattice

/-! Updates that merge: a log of them stands for the join of what they carry, and may be
shortened by squashing a part of it into one update. -/

namespace OpenWebui

universe u v

/-- What an update carries, and how a list of updates is squashed into one. -/
structure Merging (υ : Type u) (σ : Type v) [SemilatticeSup σ] [OrderBot σ] where
  content : υ → σ
  squash : List υ → υ
  squash_content : ∀ updates, content (squash updates) = (↑(updates.map content) : Multiset σ).sup

namespace Merging

variable {υ : Type u} {σ : Type v} [SemilatticeSup σ] [OrderBot σ] (merging : Merging υ σ)

def merged (updates : List υ) : σ := (↑(updates.map merging.content) : Multiset σ).sup

@[simp] theorem merged_nil : merging.merged [] = ⊥ := rfl

@[simp] theorem merged_cons (update : υ) (updates : List υ) :
    merging.merged (update :: updates) = merging.content update ⊔ merging.merged updates := rfl

@[simp] theorem merged_append (first second : List υ) :
    merging.merged (first ++ second) = merging.merged first ⊔ merging.merged second := by
  rw [merged, List.map_append, ← Multiset.coe_add, Multiset.sup_add, ← merged, ← merged]

theorem merged_le {updates : List υ} {whole : σ} :
    merging.merged updates ≤ whole ↔ ∀ update ∈ updates, merging.content update ≤ whole := by
  rw [merged, Multiset.sup_le]
  simp

theorem le_merged {updates : List υ} {update : υ} (member : update ∈ updates) :
    merging.content update ≤ merging.merged updates :=
  merging.merged_le.mp le_rfl update member

def compact (count : Nat) (updates : List υ) : List υ :=
  merging.squash (updates.take count) :: updates.drop count

theorem merged_compact (count : Nat) (updates : List υ) :
    merging.merged (merging.compact count updates) = merging.merged updates := by
  have parts := merging.merged_append (updates.take count) (updates.drop count)
  rw [List.take_append_drop] at parts
  rw [compact, merged_cons, merging.squash_content, parts]
  rfl

end Merging

end OpenWebui
