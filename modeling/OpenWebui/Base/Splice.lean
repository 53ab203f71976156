import OpenWebui.Base.ParentLinks

/-! Removal of a node together with its children from a forest. -/

namespace OpenWebui.ParentLinks

universe u
variable {κ : Type u}

def grandchildren (links : ParentLinks κ) (node : κ) : List κ :=
  (links.children node).flatMap links.children

variable {links : ParentLinks κ} {node : κ}

theorem Forest.mem_children (forest : links.Forest) (member : node ∈ links.nodes) {child : κ} :
    child ∈ links.children node ↔ links.Edge child node :=
  forest.mirrored.listed node member child

theorem Forest.mem_grandchildren (forest : links.Forest) (member : node ∈ links.nodes) {low : κ} :
    low ∈ links.grandchildren node ↔ ∃ child, links.Edge child node ∧ links.Edge low child := by
  unfold grandchildren
  rw [List.mem_flatMap]
  constructor
  · rintro ⟨child, listed, below⟩
    have edge := (forest.mem_children member).mp listed
    exact ⟨child, edge, (forest.mem_children edge.1).mp below⟩
  · rintro ⟨child, edge, below⟩
    exact ⟨child, (forest.mem_children member).mpr edge, (forest.mem_children edge.1).mpr below⟩

theorem Forest.grandchildren_nodup (forest : links.Forest) (member : node ∈ links.nodes) :
    (links.grandchildren node).Nodup := by
  unfold grandchildren
  rw [List.nodup_flatMap]
  refine ⟨?_, ?_⟩
  · intro child listed
    exact forest.mirrored.distinct child ((forest.mem_children member).mp listed).1
  · refine (forest.mirrored.distinct node member).imp_of_mem ?_
    intro first second firstListed secondListed different low below again
    have one := (forest.mem_children ((forest.mem_children member).mp firstListed).1).mp below
    have two := (forest.mem_children ((forest.mem_children member).mp secondListed).1).mp again
    exact different (Option.some.inj (one.2.symm.trans two.2))

variable [DecidableEq κ]

def splice (links : ParentLinks κ) (node : κ) : ParentLinks κ where
  nodes := links.nodes.filter (fun other => decide (other ≠ node ∧ other ∉ links.children node))
  parent other := if other ∈ links.grandchildren node then links.parent node else links.parent other
  children other :=
    if links.parent node = some other then
      (links.children other).filter (fun child => decide (child ≠ node)) ++ links.grandchildren node
    else links.children other

theorem mem_splice_nodes {other : κ} :
    other ∈ (links.splice node).nodes ↔
      other ∈ links.nodes ∧ other ≠ node ∧ other ∉ links.children node := by
  simp [splice]

theorem Forest.grandchild_kept (forest : links.Forest) (member : node ∈ links.nodes) {low : κ}
    (grand : low ∈ links.grandchildren node) : low ∈ (links.splice node).nodes := by
  obtain ⟨child, edge, below⟩ := (forest.mem_grandchildren member).mp grand
  refine mem_splice_nodes.mpr ⟨below.1, forest.acyclic.ne_of_two below edge, ?_⟩
  intro listed
  have above := (forest.mem_children member).mp listed
  have same : child = node := Option.some.inj (below.2.symm.trans above.2)
  exact forest.acyclic.ne edge same

theorem Forest.parent_kept (forest : links.Forest) (member : node ∈ links.nodes) {above : κ}
    (named : links.parent node = some above) : above ∈ (links.splice node).nodes := by
  have edge : links.Edge node above := ⟨member, named⟩
  refine mem_splice_nodes.mpr ⟨forest.closed node above edge, (forest.acyclic.ne edge).symm, ?_⟩
  intro listed
  have back := (forest.mem_children member).mp listed
  exact forest.acyclic.ne_of_two edge back rfl

theorem splice_edge (member : node ∈ links.nodes) {low above : κ} :
    (links.splice node).Edge low above ↔
      low ∈ (links.splice node).nodes ∧
        (low ∈ links.grandchildren node ∧ links.Edge node above ∨
          low ∉ links.grandchildren node ∧ links.Edge low above) := by
  unfold Edge
  refine and_congr_right fun kept => ?_
  have old := (mem_splice_nodes.mp kept).1
  by_cases grand : low ∈ links.grandchildren node
  · simp [splice, grand, member]
  · simp [splice, grand, old]

theorem Forest.splice_closed (forest : links.Forest) (member : node ∈ links.nodes) :
    (links.splice node).Closed := by
  intro low above edge
  obtain ⟨kept, ⟨_, up⟩ | ⟨notGrand, up⟩⟩ := (splice_edge member).mp edge
  · exact forest.parent_kept member up.2
  · obtain ⟨_, _, notChild⟩ := mem_splice_nodes.mp kept
    refine mem_splice_nodes.mpr ⟨forest.closed low above up, ?_, ?_⟩
    · intro same
      subst same
      exact notChild ((forest.mem_children member).mpr up)
    · intro listed
      exact notGrand ((forest.mem_grandchildren member).mpr
        ⟨above, (forest.mem_children member).mp listed, up⟩)

theorem Forest.splice_mirrored (forest : links.Forest) (member : node ∈ links.nodes) :
    (links.splice node).Mirrored where
  listed := by
    intro above kept low
    obtain ⟨present, notNode, notChild⟩ := mem_splice_nodes.mp kept
    have children : low ∈ links.children above ↔ links.Edge low above := forest.mem_children present
    -- A survivor below a survivor other than the parent was listed before, and is no grandchild.
    have lowKept (edge : links.Edge low above) (other : low ≠ node) :
        low ∈ (links.splice node).nodes ∧ low ∉ links.grandchildren node := by
      constructor
      · refine mem_splice_nodes.mpr ⟨edge.1, other, fun listed => notNode ?_⟩
        exact Option.some.inj (edge.2.symm.trans ((forest.mem_children member).mp listed).2)
      · intro grand
        obtain ⟨child, up, below⟩ := (forest.mem_grandchildren member).mp grand
        have same : above = child := Option.some.inj (edge.2.symm.trans below.2)
        exact notChild (same ▸ (forest.mem_children member).mpr up)
    rw [splice_edge member]
    by_cases named : links.parent node = some above
    · have listing : low ∈ (links.splice node).children above ↔
          low ∈ links.children above ∧ low ≠ node ∨ low ∈ links.grandchildren node := by
        simp [splice, named]
      rw [listing, children]
      constructor
      · rintro (⟨edge, other⟩ | grand)
        · exact ⟨(lowKept edge other).1, .inr ⟨(lowKept edge other).2, edge⟩⟩
        · exact ⟨forest.grandchild_kept member grand, .inl ⟨grand, member, named⟩⟩
      · rintro ⟨lowPresent, ⟨grand, _⟩ | ⟨_, edge⟩⟩
        · exact .inr grand
        · exact .inl ⟨edge, (mem_splice_nodes.mp lowPresent).2.1⟩
    · have listing : (links.splice node).children above = links.children above := by
        simp [splice, named]
      rw [listing, children]
      constructor
      · intro edge
        have other : low ≠ node := fun same => named (same ▸ edge.2)
        exact ⟨(lowKept edge other).1, .inr ⟨(lowKept edge other).2, edge⟩⟩
      · rintro ⟨_, ⟨_, up⟩ | ⟨_, edge⟩⟩
        · exact absurd up.2 named
        · exact edge
  distinct := by
    intro above kept
    obtain ⟨present, _, notChild⟩ := mem_splice_nodes.mp kept
    by_cases named : links.parent node = some above
    · simp only [splice, named, ↓reduceIte]
      rw [List.nodup_append]
      refine ⟨(forest.mirrored.distinct above present).filter _,
        forest.grandchildren_nodup member, ?_⟩
      intro low before grand after same
      subst same
      have edge := (forest.mem_children present).mp (List.mem_filter.mp before).1
      obtain ⟨child, up, below⟩ := (forest.mem_grandchildren member).mp after
      have equal : above = child := Option.some.inj (edge.2.symm.trans below.2)
      exact notChild (equal ▸ (forest.mem_children member).mpr up)
    · simp only [splice, named, ↓reduceIte]
      exact forest.mirrored.distinct above present

theorem Forest.splice_acyclic (forest : links.Forest) (member : node ∈ links.nodes) :
    (links.splice node).Acyclic := by
  apply forest.acyclic.of_paths
  intro low above edge
  obtain ⟨_, ⟨grand, up⟩ | ⟨_, up⟩⟩ := (splice_edge member).mp edge
  · obtain ⟨child, middle, below⟩ := (forest.mem_grandchildren member).mp grand
    exact ((Relation.TransGen.single below).tail middle).tail up
  · exact .single up

theorem Forest.splice (forest : links.Forest) (member : node ∈ links.nodes) :
    (links.splice node).Forest :=
  ⟨forest.splice_closed member, forest.splice_mirrored member, forest.splice_acyclic member⟩

end OpenWebui.ParentLinks
