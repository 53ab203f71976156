import Mathlib.Algebra.BigOperators.Group.List.Basic
import OpenWebui.Base.Dict

/-! Sums over the values of a dictionary: what a new entry and a changed one make of them. -/

namespace OpenWebui.Dict

universe u v w

variable {κ : Type u} {β : Type v} {M : Type w} [AddCommMonoid M]

def total (dict : Dict κ β) (measure : β → M) : M :=
  (dict.entries.map (fun entry => measure entry.2)).sum

@[simp] theorem total_empty (measure : β → M) : (empty : Dict κ β).total measure = 0 := rfl

variable [DecidableEq κ]

theorem total_set_of_fresh {dict : Dict κ β} {key : κ} (fresh : key ∉ dict.keys) (value : β)
    (measure : β → M) : (dict.set key value).total measure = dict.total measure + measure value := by
  rw [total, entries_set_of_fresh fresh, List.map_append, List.sum_append, List.map_singleton,
    List.sum_singleton, total]

theorem sum_set {entries : List (κ × β)} {key : κ} {old : β} (found : entries.lookup key = some old)
    (value : β) (measure : β → M) :
    ((Assoc.set entries key value).map (fun entry => measure entry.2)).sum + measure old =
      (entries.map (fun entry => measure entry.2)).sum + measure value := by
  induction entries with
  | nil => cases found
  | cons entry rest ih =>
    obtain ⟨other, first⟩ := entry
    rw [Assoc.lookup_cons_self_or] at found
    by_cases same : other = key
    · rw [if_pos same] at found
      obtain rfl := Option.some.inj found
      rw [Assoc.set, if_pos same, List.map_cons, List.sum_cons, List.map_cons, List.sum_cons,
        add_comm (measure value), add_comm _ (measure first), ← add_assoc]
    · rw [if_neg same] at found
      rw [Assoc.set, if_neg same, List.map_cons, List.sum_cons, List.map_cons, List.sum_cons, add_assoc,
        ih found, add_assoc]

theorem total_modify {dict : Dict κ β} {key : κ} {old : β} (found : dict.get? key = some old)
    (update : β → β) (measure : β → M) :
    (dict.modify key update).total measure + measure old = dict.total measure + measure (update old) := by
  rw [modify, found]
  exact sum_set found (update old) measure

end OpenWebui.Dict
