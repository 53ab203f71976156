import Mathlib.Data.List.Nodup
import Mathlib.Logic.Relation

/-! All that can be reached from a node, collected with a queue of nodes or by passes over all
links. -/

namespace OpenWebui

universe u

open Relation

namespace Reach

variable {κ : Type u} [DecidableEq κ]

/-- One step down. -/
def Below (children : κ → List κ) (parent child : κ) : Prop := child ∈ children parent

def worklist (children : κ → List κ) : Nat → List κ → List κ → List κ
  | 0, found, _ => found
  | fuel + 1, found, queue =>
    match queue.getLast? with
    | none => found
    | some parent =>
      let fresh := (children parent).filter (fun child => decide (child ∉ found))
      worklist children fuel (found ++ fresh) (queue.dropLast ++ fresh)

section Worklist

variable {children : κ → List κ} {start : κ}

/-- What holds of the nodes found and the queue. -/
structure Working (children : κ → List κ) (start : κ) (found queue : List κ) : Prop where
  distinct : found.Nodup
  reached : ∀ node ∈ found, ReflTransGen (Below children) start node
  started : start ∈ found
  queued : ∀ node ∈ queue, node ∈ found
  closed : ∀ node ∈ found, node ∈ queue ∨ ∀ child ∈ children node, child ∈ found

omit [DecidableEq κ] in
theorem Working.begin (children : κ → List κ) (start : κ) :
    Working children start [start] [start] where
  distinct := List.nodup_singleton start
  reached node member := by
    rw [List.mem_singleton.mp member]
  started := List.mem_singleton_self start
  queued _ member := member
  closed _ member := .inl member

theorem Working.next {found before : List κ} {parent : κ}
    (working : Working children start found (before ++ [parent]))
    (distinct : (children parent).Nodup) :
    Working children start
      (found ++ (children parent).filter (fun child => decide (child ∉ found)))
      (before ++ (children parent).filter (fun child => decide (child ∉ found))) where
  distinct := by
    refine List.Nodup.append working.distinct (distinct.filter _) ?_
    intro node old new
    exact of_decide_eq_true (List.mem_filter.mp new).2 old
  reached node member := by
    rcases List.mem_append.mp member with old | new
    · exact working.reached node old
    · exact (working.reached parent (working.queued parent (by simp))).tail
        (List.mem_filter.mp new).1
  started := List.mem_append_left _ working.started
  queued node member := by
    rcases List.mem_append.mp member with old | new
    · exact List.mem_append_left _ (working.queued node (List.mem_append_left _ old))
    · exact List.mem_append_right _ new
  closed node member := by
    rcases List.mem_append.mp member with old | new
    · rcases working.closed node old with waits | done
      · rcases List.mem_append.mp waits with before | last
        · exact .inl (List.mem_append_left _ before)
        · obtain rfl := List.mem_singleton.mp last
          refine .inr (fun child listed => ?_)
          by_cases there : child ∈ found
          · exact List.mem_append_left _ there
          · exact List.mem_append_right _ (List.mem_filter.mpr ⟨listed, decide_eq_true there⟩)
      · exact .inr (fun child listed => List.mem_append_left _ (done child listed))
    · exact .inl (List.mem_append_right _ new)

omit [DecidableEq κ] in
theorem Working.mem_iff {found : List κ} (working : Working children start found []) {node : κ} :
    node ∈ found ↔ ReflTransGen (Below children) start node := by
  refine ⟨working.reached node, fun path => ?_⟩
  induction path with
  | refl => exact working.started
  | tail _ listed ih =>
    rcases working.closed _ ih with waits | done
    · cases waits
    · exact done _ listed

theorem mem_worklist {nodes : List κ} (distinct : ∀ parent, (children parent).Nodup)
    (inside : ∀ parent, ∀ child ∈ children parent, child ∈ nodes) {fuel : Nat} {found queue : List κ}
    (working : Working children start found queue) (known : ∀ node ∈ found, node ∈ start :: nodes)
    (enough : queue.length + (nodes.length + 1 - found.length) ≤ fuel) {node : κ} :
    node ∈ worklist children fuel found queue ↔ ReflTransGen (Below children) start node := by
  induction fuel generalizing found queue with
  | zero =>
    have empty : queue = [] := List.eq_nil_of_length_eq_zero (by omega)
    subst empty
    exact working.mem_iff
  | succ fuel ih =>
    rw [worklist]
    rcases List.eq_nil_or_concat' queue with rfl | ⟨before, parent, rfl⟩
    · exact working.mem_iff
    · have next := working.next (distinct parent)
      have known_next : ∀ node ∈ found ++ (children parent).filter (fun child =>
          decide (child ∉ found)), node ∈ start :: nodes := by
        intro node member
        rcases List.mem_append.mp member with old | new
        · exact known node old
        · exact List.mem_cons_of_mem _ (inside parent node (List.mem_filter.mp new).1)
      have bound := next.distinct.length_le_of_subset known_next
      rw [List.getLast?_concat, List.dropLast_concat]
      refine ih next known_next ?_
      simp only [List.length_append, List.length_cons, List.length_nil] at enough bound ⊢
      omega

end Worklist

def pass (links : List (κ × Option κ)) (targets : List κ) : List κ :=
  links.foldl (fun targets link =>
    if (∃ parent ∈ link.2, parent ∈ targets) ∧ link.1 ∉ targets then targets ++ [link.1]
    else targets) targets

def passes (links : List (κ × Option κ)) : Nat → List κ → List κ
  | 0, targets => targets
  | fuel + 1, targets =>
    if pass links targets = targets then targets else passes links fuel (pass links targets)

section Passes

variable {links : List (κ × Option κ)} {targets : List κ}

theorem pass_cons (link : κ × Option κ) (rest : List (κ × Option κ)) (targets : List κ) :
    pass (link :: rest) targets =
      pass rest (if (∃ parent ∈ link.2, parent ∈ targets) ∧ link.1 ∉ targets then
        targets ++ [link.1] else targets) := rfl

theorem targets_begin_pass (links : List (κ × Option κ)) (targets : List κ) :
    targets <+: pass links targets := by
  induction links generalizing targets with
  | nil => exact List.prefix_refl targets
  | cons link rest ih =>
    rw [pass_cons]
    split
    · exact (List.prefix_append targets [link.1]).trans (ih _)
    · exact ih targets

theorem nodup_pass (distinct : targets.Nodup) : (pass links targets).Nodup := by
  induction links generalizing targets with
  | nil => exact distinct
  | cons link rest ih =>
    rw [pass_cons]
    split
    · rename_i joins
      refine ih (distinct.append (List.nodup_singleton link.1) ?_)
      intro node old new
      exact joins.2 (List.mem_singleton.mp new ▸ old)
    · exact ih distinct

/-- The links as steps down. -/
def Linked (links : List (κ × Option κ)) (parent child : κ) : Prop := (child, some parent) ∈ links

theorem reached_pass {start : κ} {all : List (κ × Option κ)} (inside : links ⊆ all)
    (reached : ∀ node ∈ targets, ReflTransGen (Linked all) start node) :
    ∀ node ∈ pass links targets, ReflTransGen (Linked all) start node := by
  induction links generalizing targets with
  | nil => exact reached
  | cons link rest ih =>
    rw [pass_cons]
    have later := fun other member => inside (List.mem_cons_of_mem link member : other ∈ link :: rest)
    split
    · rename_i joins
      obtain ⟨⟨parent, named, present⟩, _⟩ := joins
      refine ih (fun other member => later other member) ?_
      intro node member
      rcases List.mem_append.mp member with old | new
      · exact reached node old
      · obtain rfl := List.mem_singleton.mp new
        refine (reached parent present).tail ?_
        rw [Linked, ← Option.mem_def.mp named]
        exact inside List.mem_cons_self
    · exact ih (fun other member => later other member) reached

theorem mem_of_pass {node : κ} (member : node ∈ pass links targets) :
    node ∈ targets ∨ node ∈ links.map Prod.fst := by
  induction links generalizing targets with
  | nil => exact .inl member
  | cons link rest ih =>
    rw [pass_cons] at member
    rcases ih member with joined | later
    · split at joined
      · rcases List.mem_append.mp joined with old | new
        · exact .inl old
        · exact .inr (List.mem_singleton.mp new ▸ List.mem_cons_self)
      · exact .inl joined
    · exact .inr (List.mem_cons_of_mem _ later)

theorem closed_of_pass (same : pass links targets = targets) {parent child : κ}
    (linked : Linked links parent child) (present : parent ∈ targets) : child ∈ targets := by
  have general : ∀ (links : List (κ × Option κ)) (targets : List κ), (child, some parent) ∈ links →
      parent ∈ targets → child ∈ pass links targets := by
    intro links
    induction links with
    | nil => exact fun _ none_left => nomatch none_left
    | cons link rest ih =>
      intro targets member present
      rw [pass_cons]
      rcases List.mem_cons.mp member with rfl | later
      · refine (targets_begin_pass rest _).subset ?_
        by_cases there : child ∈ targets
        · rwa [if_neg (fun joins => joins.2 there)]
        · rw [if_pos ⟨⟨parent, rfl, present⟩, there⟩]
          exact List.mem_append_right _ List.mem_cons_self
      · refine ih _ later ?_
        split
        · exact List.mem_append_left _ present
        · exact present
  have found := general links targets linked present
  rwa [same] at found

theorem mem_passes {start : κ} {fuel : Nat} (distinct : targets.Nodup) (started : start ∈ targets)
    (reached : ∀ node ∈ targets, ReflTransGen (Linked links) start node)
    (known : ∀ node ∈ targets, node ∈ start :: links.map Prod.fst)
    (enough : links.length + 1 < targets.length + fuel) {node : κ} :
    node ∈ passes links fuel targets ↔ ReflTransGen (Linked links) start node := by
  induction fuel generalizing targets with
  | zero =>
    have bound := distinct.length_le_of_subset known
    simp only [List.length_cons, List.length_map] at bound
    omega
  | succ fuel ih =>
    rw [passes]
    split
    · rename_i same
      clear ih
      refine ⟨reached node, fun path => ?_⟩
      induction path with
      | refl => exact started
      | tail _ linked there => exact closed_of_pass same linked there
    · rename_i grows
      have begins := targets_begin_pass links targets
      have longer : targets.length < (pass links targets).length :=
        Nat.lt_of_le_of_ne begins.length_le (fun equal => grows (begins.eq_of_length equal).symm)
      refine ih (nodup_pass distinct) (begins.subset started)
        (reached_pass (List.Subset.refl links) reached) ?_ (by omega)
      intro other member
      rcases mem_of_pass member with old | new
      · exact known other old
      · exact List.mem_cons_of_mem _ new

end Passes

end Reach

end OpenWebui
