import Mathlib.Data.Finset.Card

/-! A pool of slots, in which every slot is free or has one holder. -/

namespace OpenWebui

universe u

structure Slots (α : Type u) where
  size : Nat
  free : Nat
  holders : Finset α
  balanced : free + holders.card = size

namespace Slots

variable {α : Type u}

def full (size : Nat) : Slots α := ⟨size, size, ∅, rfl⟩

theorem card_holders_le (pool : Slots α) : pool.holders.card ≤ pool.size := by
  have balanced := pool.balanced
  omega

theorem free_eq_size {pool : Slots α} (idle : pool.holders = ∅) : pool.free = pool.size := by
  have balanced := pool.balanced
  rwa [idle, Finset.card_empty, Nat.add_zero] at balanced

variable [DecidableEq α]

def take (pool : Slots α) (holder : α) (room : 0 < pool.free) (new : holder ∉ pool.holders) :
    Slots α where
  size := pool.size
  free := pool.free - 1
  holders := insert holder pool.holders
  balanced := by
    have balanced := pool.balanced
    rw [Finset.card_insert_of_notMem new]
    omega

def give (pool : Slots α) (holder : α) (held : holder ∈ pool.holders) : Slots α where
  size := pool.size
  free := pool.free + 1
  holders := pool.holders.erase holder
  balanced := by
    have balanced := pool.balanced
    have some_holder := Finset.card_pos.mpr ⟨holder, held⟩
    rw [Finset.card_erase_of_mem held]
    omega

end Slots

end OpenWebui
