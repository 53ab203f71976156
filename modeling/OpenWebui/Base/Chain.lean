import Mathlib.Data.List.Nodup
import Mathlib.Logic.Relation

/-! A walk along `next` that stops at the first node it has seen before. -/

namespace OpenWebui

universe u

open Relation

section Chain

variable {κ : Type u} [DecidableEq κ] (next : κ → Option κ)

def chain : Nat → Option κ → List κ → Option (List κ)
  | 0, _, _ => none
  | fuel + 1, current, seen =>
    match current with
    | none => some []
    | some node =>
      if node ∈ seen then some []
      else (chain fuel (next node) (node :: seen)).map (fun later => node :: later)

/-- One link leads from the first node to the second. -/
def Linked (first second : κ) : Prop := next first = some second

variable {next} {fuel : Nat} {current : Option κ} {seen visited : List κ}

theorem chain_seen {node : κ} (again : node ∈ seen) :
    chain next (fuel + 1) (some node) seen = some [] := by
  simp [chain, again]

theorem chain_fresh {node : κ} (fresh : node ∉ seen) :
    chain next (fuel + 1) (some node) seen =
      (chain next fuel (next node) (node :: seen)).map (fun later => node :: later) := by
  simp [chain, fresh]

theorem chain_cases (walked : chain next fuel current seen = some visited) :
    (visited = [] ∧ ∀ node, current = some node → node ∈ seen) ∨
      ∃ before node later, fuel = before + 1 ∧ current = some node ∧ node ∉ seen ∧
        chain next before (next node) (node :: seen) = some later ∧ visited = node :: later := by
  cases fuel with
  | zero => cases walked
  | succ before =>
    cases current with
    | none =>
      left
      exact ⟨(Option.some.inj walked).symm, fun node stops => by cases stops⟩
    | some node =>
      by_cases again : node ∈ seen
      · rw [chain_seen again] at walked
        left
        refine ⟨(Option.some.inj walked).symm, fun other same => ?_⟩
        cases same
        exact again
      · rw [chain_fresh again] at walked
        obtain ⟨later, rest, same⟩ := Option.map_eq_some_iff.mp walked
        exact Or.inr ⟨before, node, later, rfl, rfl, again, rest, same.symm⟩

theorem chain_nodup (walked : chain next fuel current seen = some visited) :
    visited.Nodup ∧ ∀ node ∈ visited, node ∉ seen := by
  induction fuel generalizing current seen visited with
  | zero => cases walked
  | succ fuel ih =>
    rcases chain_cases walked with ⟨rfl, _⟩ | ⟨before, node, later, steps, _, fresh, rest, rfl⟩
    · exact ⟨List.nodup_nil, fun _ member => by cases member⟩
    · obtain rfl := Nat.succ.inj steps
      obtain ⟨distinct, outside⟩ := ih rest
      constructor
      · apply List.nodup_cons.mpr
        exact ⟨fun again => outside node again (List.mem_cons_self ..), distinct⟩
      · intro other member
        rcases List.mem_cons.mp member with rfl | after
        · exact fresh
        · exact fun present => outside other after (List.mem_cons_of_mem _ present)

theorem reachable_of_chain (walked : chain next fuel current seen = some visited) {start : κ}
    (from_ : current = some start) : ∀ node ∈ visited, ReflTransGen (Linked next) start node := by
  induction fuel generalizing current seen visited start with
  | zero => cases walked
  | succ fuel ih =>
    rcases chain_cases walked with ⟨rfl, _⟩ | ⟨before, node, later, steps, same, _, rest, rfl⟩
    · intro node member
      cases member
    · obtain rfl := Nat.succ.inj steps
      obtain rfl := Option.some.inj (from_.symm.trans same)
      intro other member
      rcases List.mem_cons.mp member with rfl | after
      · exact ReflTransGen.refl
      · cases link : next start with
        | none =>
          rcases chain_cases rest with ⟨rfl, _⟩ | ⟨_, found, _, _, named, _⟩
          · cases after
          · cases link.symm.trans named
        | some above => exact ReflTransGen.head link (ih rest link other after)

/-- What has been seen, except for the last step taken, is left by no link. -/
def ClosedBut (next : κ → Option κ) (seen : List κ) (current : Option κ) : Prop :=
  ∀ node ∈ seen, ∀ above, next node = some above → above ∈ seen ∨ current = some above

theorem chain_closed (walked : chain next fuel current seen = some visited)
    (closed : ClosedBut next seen current) :
    (∀ node, current = some node → node ∈ visited ∨ node ∈ seen) ∧
      ∀ node, node ∈ visited ∨ node ∈ seen →
        ∀ above, next node = some above → above ∈ visited ∨ above ∈ seen := by
  induction fuel generalizing current seen visited with
  | zero => cases walked
  | succ fuel ih =>
    rcases chain_cases walked with ⟨rfl, known⟩ |
        ⟨before, node, later, steps, same, fresh, rest, rfl⟩
    · refine ⟨fun node named => Or.inr (known node named), ?_⟩
      intro node member above link
      rcases member with member | member
      · cases member
      · rcases closed node member above link with inside | last
        · exact Or.inr inside
        · exact Or.inr (known above last)
    · obtain rfl := Nat.succ.inj steps
      have still : ClosedBut next (node :: seen) (next node) := by
        intro other member above link
        rcases List.mem_cons.mp member with rfl | old
        · exact Or.inr link
        · rcases closed other old above link with inside | last
          · exact Or.inl (List.mem_cons_of_mem _ inside)
          · obtain rfl := Option.some.inj (last.symm.trans same)
            exact Or.inl (List.mem_cons_self ..)
      obtain ⟨_, onward⟩ := ih rest still
      -- The two ways to write what has been seen and visited.
      have regroup : ∀ other, other ∈ node :: later ∨ other ∈ seen ↔
          other ∈ later ∨ other ∈ node :: seen := by
        intro other
        rw [List.mem_cons, List.mem_cons, or_comm (a := other = node), or_assoc]
      refine ⟨?_, ?_⟩
      · intro other named
        obtain rfl := Option.some.inj (same.symm.trans named)
        exact Or.inl (List.mem_cons_self ..)
      · intro other member above link
        exact (regroup above).mpr (onward other ((regroup other).mp member) above link)

theorem mem_chain_iff {start : κ} (walked : chain next fuel (some start) [] = some visited)
    (node : κ) : node ∈ visited ↔ ReflTransGen (Linked next) start node := by
  constructor
  · exact reachable_of_chain walked rfl node
  · intro path
    have opening : ClosedBut next [] (some start) := by
      intro other member
      cases member
    obtain ⟨begins, onward⟩ := chain_closed walked opening
    induction path with
    | refl => exact (begins start rfl).resolve_right List.not_mem_nil
    | tail _ link inside =>
      exact (onward _ (Or.inl inside) _ link).resolve_right List.not_mem_nil

theorem chain_stops_from {nodes : List κ}
    (inside : ∀ node above, next node = some above → node ∈ nodes) :
    ∀ (fuel : Nat) (current : Option κ) (seen : List κ), seen.Nodup → seen ⊆ nodes →
      nodes.length + 2 ≤ fuel + seen.length →
        ∃ visited, chain next fuel current seen = some visited := by
  intro fuel
  induction fuel with
  | zero =>
    intro current seen distinct known enough
    have short := distinct.length_le_of_subset known
    omega
  | succ fuel ih =>
    intro current seen distinct known enough
    cases current with
    | none => exact ⟨[], rfl⟩
    | some node =>
      by_cases again : node ∈ seen
      · exact ⟨[], chain_seen again⟩
      rw [chain_fresh again]
      cases link : next node with
      | none =>
        have room : fuel ≠ 0 := by
          have short := distinct.length_le_of_subset known
          omega
        obtain ⟨before, rfl⟩ := Nat.exists_eq_succ_of_ne_zero room
        exact ⟨[node], rfl⟩
      | some above =>
        obtain ⟨later, rest⟩ := ih (some above) (node :: seen)
          (List.nodup_cons.mpr ⟨again, distinct⟩)
          (List.cons_subset.mpr ⟨inside node above link, known⟩)
          (by simp only [List.length_cons]; omega)
        exact ⟨node :: later, by rw [rest]; rfl⟩

theorem chain_stops {nodes : List κ} (inside : ∀ node above, next node = some above → node ∈ nodes)
    {fuel : Nat} (enough : nodes.length + 2 ≤ fuel) (current : Option κ) :
    ∃ visited, chain next fuel current [] = some visited :=
  chain_stops_from inside fuel current [] List.nodup_nil (List.nil_subset _) enough

end Chain

end OpenWebui
