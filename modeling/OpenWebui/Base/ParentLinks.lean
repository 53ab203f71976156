import Mathlib.Data.List.Nodup
import Mathlib.Logic.Relation

/-! Finite families of nodes in which every node names at most one parent and lists its children. -/

namespace OpenWebui

universe u

open Relation

/-- Follow `next` until it stops, for at most the given number of steps. -/
def follow {κ : Type u} (next : κ → Option κ) : Nat → κ → Option κ
  | 0, _ => none
  | fuel + 1, node =>
    match next node with
    | none => some node
    | some later => follow next fuel later

private theorem follow_ends_from {κ : Type u} {next : κ → Option κ} {nodes : List κ}
    {R : κ → κ → Prop} (acyclic : ∀ node, ¬ TransGen R node node)
    (stays : ∀ node ∈ nodes, ∀ later, next node = some later → later ∈ nodes ∧ R node later) :
    ∀ (fuel : Nat) (visited : List κ) (node : κ), node ∈ nodes → visited.Nodup →
      visited ⊆ nodes → (∀ earlier ∈ visited, TransGen R earlier node) →
      nodes.length ≤ fuel + visited.length →
      ∃ last ∈ nodes, follow next fuel node = some last ∧ next last = none ∧
        ReflTransGen R node last := by
  intro fuel
  induction fuel with
  | zero =>
    -- A full list of visited nodes leaves no room for the current one.
    intro visited node member distinct inside above enough
    have fresh : node ∉ visited := fun again => acyclic node (above node again)
    have longer : (node :: visited).length ≤ nodes.length :=
      (List.nodup_cons.mpr ⟨fresh, distinct⟩).length_le_of_subset
        (List.cons_subset.mpr ⟨member, inside⟩)
    simp only [List.length_cons] at longer
    omega
  | succ fuel ih =>
    intro visited node member distinct inside above enough
    have fresh : node ∉ visited := fun again => acyclic node (above node again)
    cases step : next node with
    | none => exact ⟨node, member, by simp [follow, step], step, .refl⟩
    | some later =>
      obtain ⟨kept, edge⟩ := stays node member later step
      have aboveLater : ∀ earlier ∈ node :: visited, TransGen R earlier later := by
        intro earlier present
        rcases List.mem_cons.mp present with same | before
        · exact same ▸ .single edge
        · exact (above earlier before).tail edge
      obtain ⟨last, lastMember, result, stop, path⟩ :=
        ih (node :: visited) later kept (List.nodup_cons.mpr ⟨fresh, distinct⟩)
          (List.cons_subset.mpr ⟨member, inside⟩) aboveLater
          (by simp only [List.length_cons]; omega)
      exact ⟨last, lastMember, by simpa [follow, step] using result, stop, path.head edge⟩

theorem follow_ends {κ : Type u} {next : κ → Option κ} {nodes : List κ} {R : κ → κ → Prop}
    (acyclic : ∀ node, ¬ TransGen R node node)
    (stays : ∀ node ∈ nodes, ∀ later, next node = some later → later ∈ nodes ∧ R node later)
    {node : κ} (member : node ∈ nodes) {fuel : Nat} (enough : nodes.length ≤ fuel) :
    ∃ last ∈ nodes, follow next fuel node = some last ∧ next last = none ∧
      ReflTransGen R node last :=
  follow_ends_from acyclic stays fuel [] node member List.nodup_nil (by simp) (by simp)
    (by simpa using enough)

structure ParentLinks (κ : Type u) where
  nodes : List κ
  parent : κ → Option κ
  children : κ → List κ

namespace ParentLinks

variable {κ : Type u}

/-- `child` is a node that names `parent`. -/
def Edge (links : ParentLinks κ) (child parent : κ) : Prop :=
  child ∈ links.nodes ∧ links.parent child = some parent

/-- Every named parent is a node. -/
def Closed (links : ParentLinks κ) : Prop :=
  ∀ child parent, links.Edge child parent → parent ∈ links.nodes

/-- The child lists are exactly the reverse of the parent links, without repetition. -/
structure Mirrored (links : ParentLinks κ) : Prop where
  listed : ∀ node ∈ links.nodes, ∀ child, child ∈ links.children node ↔ links.Edge child node
  distinct : ∀ node ∈ links.nodes, (links.children node).Nodup

def Acyclic (links : ParentLinks κ) : Prop := ∀ node, ¬ TransGen links.Edge node node

structure Forest (links : ParentLinks κ) : Prop where
  closed : links.Closed
  mirrored : links.Mirrored
  acyclic : links.Acyclic

theorem Acyclic.of_paths {links other : ParentLinks κ} (acyclic : links.Acyclic)
    (paths : ∀ child parent, other.Edge child parent → TransGen links.Edge child parent) :
    other.Acyclic := by
  intro node cycle
  apply acyclic node
  exact TransGen.closed (fun child parent => paths child parent) node node cycle

theorem Acyclic.ne {links : ParentLinks κ} (acyclic : links.Acyclic) {child parent : κ}
    (edge : links.Edge child parent) : child ≠ parent := by
  intro same
  subst same
  exact acyclic child (.single edge)

theorem Acyclic.ne_of_two {links : ParentLinks κ} (acyclic : links.Acyclic) {low middle high : κ}
    (first : links.Edge low middle) (second : links.Edge middle high) : low ≠ high := by
  intro same
  subst same
  exact acyclic low ((TransGen.single first).tail second)

theorem Forest.rooted {links : ParentLinks κ} (forest : links.Forest) {node : κ}
    (member : node ∈ links.nodes) :
    ∃ root ∈ links.nodes, links.parent root = none ∧ ReflTransGen links.Edge node root := by
  have stays : ∀ node ∈ links.nodes, ∀ parent, links.parent node = some parent →
      parent ∈ links.nodes ∧ links.Edge node parent :=
    fun node present parent named => ⟨forest.closed _ _ ⟨present, named⟩, present, named⟩
  obtain ⟨root, rootMember, _, stop, path⟩ :=
    follow_ends forest.acyclic stays member (Nat.le_refl _)
  exact ⟨root, rootMember, stop, path⟩

def descend (links : ParentLinks κ) : Nat → κ → Option κ :=
  follow (fun node => (links.children node).getLast?)

theorem Forest.descend_leaf {links : ParentLinks κ} (forest : links.Forest) {node : κ}
    (member : node ∈ links.nodes) {fuel : Nat} (enough : links.nodes.length ≤ fuel) :
    ∃ leaf ∈ links.nodes, links.descend fuel node = some leaf ∧ links.children leaf = [] ∧
      ReflTransGen links.Edge leaf node := by
  have acyclic : ∀ node, ¬ TransGen (Function.swap links.Edge) node node := by
    intro node cycle
    exact forest.acyclic node (transGen_swap.mp cycle)
  have stays : ∀ node ∈ links.nodes, ∀ child, (links.children node).getLast? = some child →
      child ∈ links.nodes ∧ Function.swap links.Edge node child := by
    intro node present child last
    have edge := (forest.mirrored.listed node present child).mp (List.mem_of_getLast? last)
    exact ⟨edge.1, edge⟩
  obtain ⟨leaf, leafMember, result, stop, path⟩ := follow_ends acyclic stays member enough
  exact ⟨leaf, leafMember, result, List.getLast?_eq_none_iff.mp stop, reflTransGen_swap.mp path⟩

def rebuilt [DecidableEq κ] (links : ParentLinks κ) : ParentLinks κ :=
  { links with
    children := fun node => links.nodes.filter (fun child => links.parent child == some node) }

theorem rebuilt_mirrored [DecidableEq κ] (links : ParentLinks κ) (distinct : links.nodes.Nodup) :
    links.rebuilt.Mirrored where
  listed node _ child := by simp [rebuilt, Edge]
  distinct node _ := distinct.filter _

section Congr

variable {links other : ParentLinks κ}
  (nodes : ∀ node, node ∈ other.nodes ↔ node ∈ links.nodes)
  (parent : ∀ node ∈ links.nodes, other.parent node = links.parent node)
  (children : ∀ node ∈ links.nodes, other.children node = links.children node)

include nodes parent

theorem edge_congr (child above : κ) : other.Edge child above ↔ links.Edge child above := by
  unfold Edge
  rw [nodes]
  exact and_congr_right fun member => by rw [parent child member]

include children

theorem Mirrored.congr (mirrored : links.Mirrored) : other.Mirrored where
  listed := by
    intro node member child
    have present := (nodes node).mp member
    rw [children node present, edge_congr nodes parent]
    exact mirrored.listed node present child
  distinct := by
    intro node member
    have present := (nodes node).mp member
    rw [children node present]
    exact mirrored.distinct node present

theorem Forest.congr (forest : links.Forest) : other.Forest := by
  have edge := edge_congr nodes parent
  refine ⟨?_, forest.mirrored.congr nodes parent children, ?_⟩
  · intro child above named
    exact (nodes above).mpr (forest.closed child above ((edge child above).mp named))
  · exact forest.acyclic.of_paths fun child above named => .single ((edge child above).mp named)

end Congr

theorem acyclic_at_of_follow {links : ParentLinks κ} {fuel : Nat} {node : κ}
    (ends : (follow links.parent fuel node).isSome = true) : ¬ TransGen links.Edge node node := by
  -- Following one edge uses one step, so a node above the start ends sooner.
  have sooner : ∀ {child above : κ}, TransGen links.Edge child above → ∀ fuel,
      (follow links.parent fuel child).isSome = true →
      ∃ less < fuel, (follow links.parent less above).isSome = true := by
    intro child above path
    induction path with
    | single edge =>
      intro fuel ends
      cases fuel with
      | zero => simp [follow] at ends
      | succ fuel => exact ⟨fuel, Nat.lt_succ_self _, by simpa [follow, edge.2] using ends⟩
    | tail _ edge ih =>
      intro fuel ends
      obtain ⟨less, below, middle⟩ := ih fuel ends
      cases less with
      | zero => simp [follow] at middle
      | succ less => exact ⟨less, by omega, by simpa [follow, edge.2] using middle⟩
  intro cycle
  induction fuel using Nat.strongRecOn with
  | ind fuel ih =>
    obtain ⟨less, below, again⟩ := sooner cycle fuel ends
    exact ih less below again

/-- The forest conditions as finite checks over the nodes. -/
def Checked (links : ParentLinks κ) : Prop :=
  (∀ node ∈ links.nodes, ∀ parent ∈ links.parent node, parent ∈ links.nodes) ∧
    (∀ node ∈ links.nodes, ∀ child ∈ links.children node, links.Edge child node) ∧
    (∀ node ∈ links.nodes, ∀ child ∈ links.nodes,
      links.parent child = some node → child ∈ links.children node) ∧
    (∀ node ∈ links.nodes, (links.children node).Nodup) ∧
    ∀ node ∈ links.nodes, (follow links.parent links.nodes.length node).isSome = true

theorem forest_iff_checked (links : ParentLinks κ) : links.Forest ↔ links.Checked := by
  constructor
  · intro forest
    refine ⟨?_, ?_, ?_, forest.mirrored.distinct, ?_⟩
    · intro node member parent named
      exact forest.closed node parent ⟨member, named⟩
    · intro node member child listed
      exact (forest.mirrored.listed node member child).mp listed
    · intro node member child present named
      exact (forest.mirrored.listed node member child).mpr ⟨present, named⟩
    · intro node member
      have stays : ∀ node ∈ links.nodes, ∀ parent, links.parent node = some parent →
          parent ∈ links.nodes ∧ links.Edge node parent :=
        fun node present parent named => ⟨forest.closed _ _ ⟨present, named⟩, present, named⟩
      obtain ⟨root, _, result, _⟩ := follow_ends forest.acyclic stays member (Nat.le_refl _)
      rw [result]
      rfl
  · rintro ⟨closed, listed, named, distinct, ends⟩
    refine ⟨fun child parent edge => closed child edge.1 parent edge.2, ⟨?_, distinct⟩, ?_⟩
    · intro node member child
      exact ⟨listed node member child, fun edge => named node member child edge.1 edge.2⟩
    · intro node cycle
      have member : node ∈ links.nodes := by
        cases (TransGen.head'_iff.mp cycle) with
        | intro _ step => exact step.1.1
      exact acyclic_at_of_follow (ends node member) cycle

section Decide

variable [DecidableEq κ]

instance (links : ParentLinks κ) (child parent : κ) : Decidable (links.Edge child parent) :=
  inferInstanceAs (Decidable (child ∈ links.nodes ∧ links.parent child = some parent))

instance (links : ParentLinks κ) : Decidable links.Checked :=
  inferInstanceAs (Decidable (_ ∧ _ ∧ _ ∧ _ ∧ _))

instance (links : ParentLinks κ) : Decidable links.Forest :=
  decidable_of_iff links.Checked (forest_iff_checked links).symm

end Decide

end ParentLinks

end OpenWebui

namespace OpenWebui.ParentLinks

universe u

open Relation

variable {κ : Type u}

theorem length_filter_lt {items : List κ} {few many : κ → Bool}
    (wider : ∀ item, few item = true → many item = true) {item : κ} (member : item ∈ items)
    (kept : many item = true) (left : few item = false) :
    (items.filter few).length < (items.filter many).length := by
  have grows : ∀ rest : List κ, (rest.filter few).length ≤ (rest.filter many).length := by
    intro rest
    induction rest with
    | nil => exact Nat.le_refl _
    | cons head tail ih =>
      cases short : few head with
      | true => simp [short, wider head short, ih]
      | false => cases long : many head <;> simp [short, long] <;> omega
  induction items with
  | nil => simp at member
  | cons head tail ih =>
    rcases List.mem_cons.mp member with rfl | later
    · have := grows tail
      simp [kept, left]
      omega
    · have := ih later
      cases short : few head with
      | true => simp [short, wider head short, this]
      | false => cases long : many head <;> simp [short, long] <;> omega

section Rank

open Classical in
noncomputable def below (links : ParentLinks κ) (node : κ) : Nat :=
  (links.nodes.filter (fun other => decide (TransGen links.Edge other node))).length

open Classical in
noncomputable def above (links : ParentLinks κ) (node : κ) : Nat :=
  (links.nodes.filter (fun other => decide (TransGen links.Edge node other))).length

theorem below_lt {links : ParentLinks κ} {child parent : κ} (edge : links.Edge child parent)
    (apart : ¬ TransGen links.Edge child child) : links.below child < links.below parent := by
  refine length_filter_lt ?_ edge.1 (by simpa using TransGen.single edge) (by simpa using apart)
  intro node under
  simp only [decide_eq_true_eq] at under ⊢
  exact under.tail edge

theorem above_lt {links : ParentLinks κ} {child parent : κ} (edge : links.Edge child parent)
    (member : parent ∈ links.nodes) (apart : ¬ TransGen links.Edge parent parent) :
    links.above parent < links.above child := by
  refine length_filter_lt ?_ member (by simpa using TransGen.single edge) (by simpa using apart)
  intro node higher
  simp only [decide_eq_true_eq] at higher ⊢
  exact higher.head edge

theorem Acyclic.below_lt {links : ParentLinks κ} (acyclic : links.Acyclic) {child parent : κ}
    (edge : links.Edge child parent) : links.below child < links.below parent :=
  ParentLinks.below_lt edge (acyclic child)

theorem Acyclic.above_lt {links : ParentLinks κ} (acyclic : links.Acyclic) {child parent : κ}
    (edge : links.Edge child parent) (member : parent ∈ links.nodes) :
    links.above parent < links.above child :=
  ParentLinks.above_lt edge member (acyclic parent)

end Rank

theorem acyclic_of_rank {links : ParentLinks κ} (rank : κ → Nat)
    (grows : ∀ child parent, links.Edge child parent → rank child < rank parent) :
    links.Acyclic := by
  have higher : ∀ {low high : κ}, TransGen links.Edge low high → rank low < rank high := by
    intro low high path
    induction path with
    | single edge => exact grows _ _ edge
    | tail _ edge ih => exact Nat.lt_trans ih (grows _ _ edge)
  exact fun node cycle => Nat.lt_irrefl _ (higher cycle)

theorem Acyclic.of_new {links other : ParentLinks κ} (acyclic : links.Acyclic) (new : κ)
    (old : ∀ child parent, other.Edge child parent → child ≠ new → links.Edge child parent)
    (unnamed : ∀ child, ¬ other.Edge child new) : other.Acyclic := by
  have path : ∀ {start last : κ}, TransGen other.Edge start last → start ≠ new →
      last ≠ new ∧ TransGen links.Edge start last := by
    intro start last steps begins
    induction steps with
    | single edge =>
      refine ⟨?_, .single (old _ _ edge begins)⟩
      rintro rfl
      exact unnamed _ edge
    | tail _ edge ih =>
      refine ⟨?_, ih.2.tail (old _ _ edge ih.1)⟩
      rintro rfl
      exact unnamed _ edge
  intro node cycle
  by_cases same : node = new
  · subst same
    cases cycle with
    | single edge => exact unnamed _ edge
    | tail _ edge => exact unnamed _ edge
  · exact acyclic node (path cycle same).2

theorem arrives {R S : κ → κ → Prop} {goal : κ}
    (kept : ∀ child parent, R child parent → child ≠ goal → S child parent) {start : κ}
    (path : ReflTransGen R start goal) : ReflTransGen S start goal := by
  induction path using ReflTransGen.head_induction_on with
  | refl => exact .refl
  | head edge rest ih =>
    rename_i child parent
    by_cases here : child = goal
    · rw [here]
    · exact ih.head (kept _ _ edge here)

section Move

variable {links other : ParentLinks κ} {moved : κ} {target : Option κ}
  (same : ∀ child parent, child ≠ moved → (other.Edge child parent ↔ links.Edge child parent))
  (changed : ∀ parent, other.Edge moved parent ↔ target = some parent)

include same changed

theorem Acyclic.reparent_iff (acyclic : links.Acyclic) :
    other.Acyclic ↔ ∀ parent, target = some parent → ¬ ReflTransGen links.Edge parent moved := by
  constructor
  · intro still parent named path
    have back : ReflTransGen other.Edge parent moved :=
      arrives (fun child above edge different => (same child above different).mpr edge) path
    exact still moved (TransGen.head' ((changed parent).mpr named) back)
  · intro apart node cycle
    -- a cycle through the node goes on from its new parent back to it
    have through : ∀ {start last : κ}, TransGen other.Edge start last →
        TransGen links.Edge start last ∨
          (ReflTransGen other.Edge start moved ∧ ReflTransGen other.Edge moved last) := by
      intro start last steps
      induction steps with
      | single edge =>
        by_cases here : start = moved
        · subst here
          exact Or.inr ⟨.refl, .single edge⟩
        · exact Or.inl (.single ((same _ _ here).mp edge))
      | tail before edge ih =>
        rename_i middle final
        rcases ih with plain | ⟨reach, leave⟩
        · by_cases here : middle = moved
          · subst here
            exact Or.inr ⟨before.to_reflTransGen, .single edge⟩
          · exact Or.inl (plain.tail ((same _ _ here).mp edge))
        · exact Or.inr ⟨reach, leave.tail edge⟩
    rcases through cycle with plain | ⟨reach, leave⟩
    · exact acyclic node plain
    · have around : TransGen other.Edge moved moved := by
        rcases ReflTransGen.cases_head_iff.mp reach with rfl | ⟨next, edge, rest⟩
        · exact cycle
        · exact TransGen.trans_right leave (TransGen.head' edge rest)
      obtain ⟨parent, edge, rest⟩ := TransGen.head'_iff.mp around
      exact apart parent ((changed parent).mp edge)
        (arrives (fun child above step different => (same child above different).mp step) rest)

end Move

/-- Every named parent lists its child and every listed child names its parent,
with no cycle. A child may be listed twice. -/
structure Consistent (links : ParentLinks κ) : Prop where
  listed : ∀ child parent, links.Edge child parent →
    parent ∈ links.nodes ∧ child ∈ links.children parent
  named : ∀ node ∈ links.nodes, ∀ child ∈ links.children node, links.Edge child node
  acyclic : links.Acyclic

section Relink

variable {links other : ParentLinks κ} {node : κ}
  (nodes : ∀ query, query ∈ other.nodes ↔ query = node ∨ query ∈ links.nodes)
  (parent : ∀ query, query ≠ node → other.parent query = links.parent query)
  (children : ∀ query, query ≠ node → other.children query = links.children query)

include nodes

theorem edge_relink_self {above : κ} :
    other.Edge node above ↔ other.parent node = some above := by
  simp [Edge, nodes]

include parent

theorem edge_relink_iff {child above : κ} (different : child ≠ node) :
    other.Edge child above ↔ links.Edge child above := by
  simp only [Edge, nodes, parent child different, different, false_or]

include children

theorem Forest.relink_consistent_iff (forest : links.Forest) :
    other.Consistent ↔
      (∀ above, other.parent node = some above ↔ links.Edge node above) ∧
        ∀ child, child ∈ other.children node ↔ links.Edge child node := by
  constructor
  · intro consistent
    refine ⟨fun above => ⟨fun named => ?_, fun edge => ?_⟩,
      fun child => ⟨fun listed => ?_, fun edge => ?_⟩⟩
    · have edge := (edge_relink_self nodes).mpr named
      have different : above ≠ node := (consistent.acyclic.ne edge).symm
      obtain ⟨member, listed⟩ := consistent.listed node above edge
      rw [children above different] at listed
      have old := ((nodes above).mp member).resolve_left different
      exact (forest.mirrored.listed above old node).mp listed
    · have different : above ≠ node := (forest.acyclic.ne edge).symm
      have old := forest.closed node above edge
      have listed := (forest.mirrored.listed above old node).mpr edge
      rw [← children above different] at listed
      exact (consistent.named above ((nodes above).mpr (.inr old)) node listed).2
    · have edge := consistent.named node ((nodes node).mpr (.inl rfl)) child listed
      exact (edge_relink_iff nodes parent (consistent.acyclic.ne edge)).mp edge
    · have kept := (edge_relink_iff nodes parent (forest.acyclic.ne edge)).mpr edge
      exact (consistent.listed child node kept).2
  · rintro ⟨above, below⟩
    have edges : ∀ child query, other.Edge child query ↔ links.Edge child query := by
      intro child query
      by_cases same : child = node
      · rw [same, edge_relink_self nodes, above query]
      · exact edge_relink_iff nodes parent same
    refine ⟨fun child query edge => ?_, fun query member child listed => ?_, ?_⟩
    · have old := (edges child query).mp edge
      have member := forest.closed child query old
      refine ⟨(nodes query).mpr (.inr member), ?_⟩
      by_cases same : query = node
      · exact same ▸ (below child).mpr (same ▸ old)
      · rw [children query same]
        exact (forest.mirrored.listed query member child).mpr old
    · rw [edges]
      by_cases same : query = node
      · exact same ▸ (below child).mp (same ▸ listed)
      · rw [children query same] at listed
        exact (forest.mirrored.listed query (((nodes query).mp member).resolve_left same) child).mp
          listed
    · exact forest.acyclic.of_paths fun child query edge => .single ((edges child query).mp edge)

end Relink

end OpenWebui.ParentLinks
