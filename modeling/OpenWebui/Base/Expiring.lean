import Mathlib.Algebra.Order.Ring.Rat
import OpenWebui.Base.Dict

/-! A store whose keys vanish when the time they were set for has passed. -/

namespace OpenWebui

universe u v

variable {κ : Type u} {β : Type v} [DecidableEq κ]

/-- The value of every key that was set, and the time at which it vanishes. -/
structure Expiring (κ : Type u) (β : Type v) [DecidableEq κ] where
  entries : Dict κ (β × ℚ)

namespace Expiring

def empty : Expiring κ β := ⟨Dict.empty⟩

/-- `set(key, value, ex=ttl)` at a time. -/
def set (store : Expiring κ β) (key : κ) (value : β) (now ttl : ℚ) : Expiring κ β :=
  ⟨store.entries.set key (value, now + ttl)⟩

/-- `get(key)` at a time. -/
def get? (store : Expiring κ β) (key : κ) (now : ℚ) : Option β :=
  (store.entries.get? key).bind (fun entry => if now < entry.2 then some entry.1 else none)

@[simp] theorem entries_empty (key : κ) : (empty : Expiring κ β).entries.get? key = none := rfl

@[simp] theorem entries_set (store : Expiring κ β) (key query : κ) (value : β) (now ttl : ℚ) :
    (store.set key value now ttl).entries.get? query =
      if key = query then some (value, now + ttl) else store.entries.get? query :=
  Dict.get?_set store.entries key (value, now + ttl) query

theorem get?_of_missing {store : Expiring κ β} {key : κ}
    (missing : store.entries.get? key = none) (now : ℚ) : store.get? key now = none := by
  rw [get?, missing, Option.bind_none]

theorem get?_of_before {store : Expiring κ β} {key : κ} {value : β} {until_ now : ℚ}
    (stored : store.entries.get? key = some (value, until_)) (before : now < until_) :
    store.get? key now = some value := by
  rw [get?, stored, Option.bind_some, if_pos before]

theorem get?_of_after {store : Expiring κ β} {key : κ} {value : β} {until_ now : ℚ}
    (stored : store.entries.get? key = some (value, until_)) (after : until_ ≤ now) :
    store.get? key now = none := by
  rw [get?, stored, Option.bind_some, if_neg (not_lt.mpr after)]

end Expiring

end OpenWebui
