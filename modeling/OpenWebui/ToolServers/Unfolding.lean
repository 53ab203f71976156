import Mathlib.Data.Finset.Card
import Mathlib.Data.Set.Finite.Lattice
import Mathlib.Logic.Relation
import OpenWebui.ToolServers.Schema

/-! What `resolve_schema` makes of references: it ends on cyclic components and leaves no reference.
-/

namespace OpenWebui.ToolServers

open Schema

def target (components : Components) (ref : Reference) : Schema := resolvePath components ref.parts

/-- References in place of the components they lead to, save where a component with the same key is
being expanded around the reference. -/
def unfoldBy {κ : Type} [DecidableEq κ] (key : Reference → κ) (components : Components) :
    Nat → List κ → Schema → Option Schema
  | 0, _, _ => none
  | fuel + 1, stack, schema =>
    match schema.ref with
    | some ref =>
      if key ref ∈ stack then some .empty
      else unfoldBy key components fuel (key ref :: stack) (target components ref)
    | none => schema.mapM (unfoldBy key components fuel stack)

/-- The unfolding of all references: only a reference being expanded around itself is `{}`. -/
def unfolding (components : Components) : Nat → List Reference → Schema → Option Schema :=
  unfoldBy (fun ref => ref) components

theorem isEmpty_iff {schema : Schema} : schema.isEmpty = true ↔ schema = .empty := by
  obtain ⟨ref, type, properties, items, oneOf, anyOf, allOf, rest⟩ := schema
  simp [isEmpty, empty, and_assoc]

theorem resolve_schema_eq (components : Components) (fuel : Nat) (stack : List (List Char))
    (schema : Schema) :
    resolve_schema components fuel stack schema = unfoldBy Reference.name components fuel stack schema := by
  induction fuel generalizing stack schema with
  | zero => rfl
  | succ fuel ih =>
    by_cases blank : schema.isEmpty = true
    · rw [resolve_schema, if_pos blank, isEmpty_iff.mp blank]
      rfl
    · rw [resolve_schema, if_neg blank, unfoldBy]
      cases refers : schema.ref with
      | none =>
        have same : resolve_schema components fuel stack =
            unfoldBy Reference.name components fuel stack := funext (ih stack)
        simp only [same]
      | some ref =>
        simp only [schema_name_text, ref_parts_text, ih, target]
        by_cases seen : ref.name ∈ stack
        · rw [if_pos seen, if_pos seen]
        · rw [if_neg seen, if_neg seen]

section

variable {κ : Type} [DecidableEq κ] {key : Reference → κ} {components : Components}

theorem unfoldBy_mono {fuel more : Nat} {stack : List κ} {schema result : Schema} (enough : fuel ≤ more)
    (unfolded : unfoldBy key components fuel stack schema = some result) :
    unfoldBy key components more stack schema = some result := by
  induction fuel generalizing more stack schema result with
  | zero => exact nomatch unfolded
  | succ fuel ih =>
    obtain ⟨more, rfl⟩ : ∃ rest, more = rest + 1 := ⟨more - 1, by omega⟩
    have below : fuel ≤ more := by omega
    rw [unfoldBy] at unfolded ⊢
    cases refers : schema.ref with
    | none =>
      simp only [refers] at unfolded ⊢
      exact mapM_eq_some.mpr ((mapM_eq_some.mp unfolded).imp (fun _ _ _ found => ih below found))
    | some ref =>
      simp only [refers] at unfolded ⊢
      split_ifs at unfolded ⊢ with seen
      · exact unfolded
      · exact ih below unfolded

/-- With enough fuel the unfolding of a schema is `result`. -/
def Unfolds (key : Reference → κ) (components : Components) (stack : List κ) (schema result : Schema) :
    Prop :=
  ∃ fuel, unfoldBy key components fuel stack schema = some result

theorem Unfolds.unique {stack : List κ} {schema first second : Schema}
    (one : Unfolds key components stack schema first) (other : Unfolds key components stack schema second) :
    first = second := by
  obtain ⟨fuel, found⟩ := one
  obtain ⟨more, found_other⟩ := other
  have same := unfoldBy_mono (le_max_left fuel more) found
  rw [unfoldBy_mono (le_max_right fuel more) found_other] at same
  exact (Option.some.inj same).symm

theorem unfolds_seen {stack : List κ} {schema result : Schema} {ref : Reference}
    (refers : schema.ref = some ref) (seen : key ref ∈ stack) :
    Unfolds key components stack schema result ↔ result = .empty := by
  have blank : unfoldBy key components 1 stack schema = some .empty := by
    simp [unfoldBy, refers, seen]
  constructor
  · exact fun unfolds => unfolds.unique ⟨1, blank⟩
  · rintro rfl
    exact ⟨1, blank⟩

theorem unfolds_fresh {stack : List κ} {schema result : Schema} {ref : Reference}
    (refers : schema.ref = some ref) (fresh : key ref ∉ stack) :
    Unfolds key components stack schema result ↔
      Unfolds key components (key ref :: stack) (target components ref) result := by
  constructor
  · rintro ⟨fuel, found⟩
    cases fuel with
    | zero => exact nomatch found
    | succ fuel => exact ⟨fuel, by simpa [unfoldBy, refers, fresh] using found⟩
  · rintro ⟨fuel, found⟩
    exact ⟨fuel + 1, by simpa [unfoldBy, refers, fresh] using found⟩

theorem exists_enough (stack : List κ) (schemas : List Schema) :
    ∃ fuel, ∀ child ∈ schemas, ∀ value, Unfolds key components stack child value →
      unfoldBy key components fuel stack child = some value := by
  induction schemas with
  | nil => exact ⟨0, fun _ listed => nomatch listed⟩
  | cons child rest ih =>
    obtain ⟨fuel, enough⟩ := ih
    by_cases ends : ∃ value, Unfolds key components stack child value
    · obtain ⟨value, more, found⟩ := ends
      refine ⟨max fuel more, fun other listed changed unfolds => ?_⟩
      rcases List.mem_cons.mp listed with rfl | later
      · rw [unfolds.unique ⟨more, found⟩]
        exact unfoldBy_mono (le_max_right _ _) found
      · exact unfoldBy_mono (le_max_left _ _) (enough other later changed unfolds)
    · refine ⟨fuel, fun other listed changed unfolds => ?_⟩
      rcases List.mem_cons.mp listed with rfl | later
      · exact absurd ⟨changed, unfolds⟩ ends
      · exact enough other later changed unfolds

theorem unfolds_below {stack : List κ} {schema result : Schema} (plain : schema.ref = none) :
    Unfolds key components stack schema result ↔
      Lifted (Unfolds key components stack) schema result := by
  constructor
  · rintro ⟨fuel, found⟩
    cases fuel with
    | zero => exact nomatch found
    | succ fuel =>
      simp only [unfoldBy, plain] at found
      exact (mapM_eq_some.mp found).imp (fun _ _ _ below => ⟨fuel, below⟩)
  · intro lifted
    obtain ⟨fuel, enough⟩ := @exists_enough _ _ key components stack schema.children
    refine ⟨fuel + 1, ?_⟩
    simp only [unfoldBy, plain]
    exact mapM_eq_some.mpr (lifted.imp enough)

/-- The references that occur in a schema. -/
inductive Occurs (ref : Reference) : Schema → Prop
  | here {schema : Schema} (refers : schema.ref = some ref) : Occurs ref schema
  | deeper {schema child : Schema} (member : child ∈ schema.children) (inside : Occurs ref child) :
      Occurs ref schema

theorem finite_occurs (schema : Schema) : {ref | Occurs ref schema}.Finite := by
  induction schema using below_induction with
  | step schema ih =>
    have shape : {ref | Occurs ref schema} ⊆
        {ref | ref ∈ schema.ref} ∪ ⋃ child ∈ {child | child ∈ schema.children},
          {ref | Occurs ref child} := by
      rintro ref (refers | ⟨member, inside⟩)
      · exact Or.inl refers
      · exact Or.inr (Set.mem_biUnion member inside)
    refine Set.Finite.subset (Set.Finite.union ?_ ?_) shape
    · cases schema.ref with
      | none => simp
      | some ref => simp [Set.finite_singleton]
    · exact Set.Finite.biUnion (List.finite_toSet schema.children) ih

theorem finite_targets (components : Components) :
    {ref | ∃ source, Occurs ref (target components source)}.Finite := by
  have shape : {ref | ∃ source, Occurs ref (target components source)} ⊆
      {ref | Occurs ref .empty} ∪
        ⋃ schema ∈ {schema | schema ∈ components.entries.map Prod.snd}, {ref | Occurs ref schema} := by
    rintro ref ⟨source, inside⟩
    rw [target, resolvePath] at inside
    cases found : components.get? source.parts with
    | none => exact Or.inl (by simpa [found] using inside)
    | some schema =>
      refine Or.inr (Set.mem_biUnion ?_ (by simpa [found] using inside))
      exact List.mem_map.mpr ⟨(source.parts, schema), Assoc.mem_of_lookup found, rfl⟩
  exact ((finite_occurs .empty).union
    (Set.Finite.biUnion (List.finite_toSet _) (fun schema _ => finite_occurs schema))).subset shape

theorem exists_unfolds (stack : List κ) (schema : Schema) :
    ∃ result, Unfolds key components stack schema result := by
  obtain ⟨refs, listed⟩ := ((finite_targets components).union (finite_occurs schema)).exists_finset_coe
  have of_targets : ∀ source ref, Occurs ref (target components source) → ref ∈ refs := by
    intro source ref inside
    have member : ref ∈ (refs : Set Reference) := listed ▸ Or.inl ⟨source, inside⟩
    exact member
  have of_schema : ∀ ref, Occurs ref schema → ref ∈ refs := by
    intro ref inside
    have member : ref ∈ (refs : Set Reference) := listed ▸ Or.inr inside
    exact member
  clear listed
  induction unused : (refs.filter (fun ref => key ref ∉ stack)).card using Nat.strongRecOn
    generalizing stack schema with
  | _ left outer =>
    induction schema using below_induction with
    | step schema inner =>
      cases refers : schema.ref with
      | none =>
        obtain ⟨result, lifted⟩ := exists_lifted schema (fun child member =>
          inner child member (fun ref inside => of_schema ref (.deeper member inside)))
        exact ⟨result, (unfolds_below refers).mpr lifted⟩
      | some ref =>
        by_cases seen : key ref ∈ stack
        · exact ⟨.empty, (unfolds_seen refers seen).mpr rfl⟩
        · have fewer : (refs.filter (fun other => key other ∉ key ref :: stack)).card < left := by
            rw [← unused]
            refine Finset.card_lt_card (Finset.ssubset_iff_of_subset ?_ |>.mpr ⟨ref, ?_, ?_⟩)
            · intro other member
              simp only [Finset.mem_filter, List.mem_cons, not_or] at member ⊢
              exact ⟨member.1, member.2.2⟩
            · exact Finset.mem_filter.mpr ⟨of_schema ref (.here refers), seen⟩
            · simp
          obtain ⟨result, unfolds⟩ :=
            outer _ fewer (key ref :: stack) (target components ref) (of_targets ref) rfl
          exact ⟨result, (unfolds_fresh refers seen).mpr unfolds⟩

/-- There is no reference at any schema position. -/
def NoRef (schema : Schema) : Prop := ∀ ref, ¬ Occurs ref schema

theorem Unfolds.noRef {stack : List κ} {schema result : Schema}
    (unfolds : Unfolds key components stack schema result) : NoRef result := by
  have of_empty : NoRef .empty := by
    rintro ref (refers | ⟨member, inside⟩)
    · exact nomatch refers
    · exact nomatch member
  obtain ⟨fuel, found⟩ := unfolds
  induction fuel generalizing stack schema result with
  | zero => exact nomatch found
  | succ fuel ih =>
    cases refers : schema.ref with
    | none =>
      simp only [unfoldBy, refers] at found
      have lifted := mapM_eq_some.mp found
      rintro ref (here | ⟨member, inside⟩)
      · rw [lifted.ref, refers] at here
        exact nomatch here
      · obtain ⟨child, _, unfolded⟩ := lifted.origin member
        exact ih unfolded ref inside
    | some ref =>
      simp only [unfoldBy, refers] at found
      split_ifs at found with seen
      · cases found
        exact of_empty
      · exact ih found

end

section

variable {components : Components}

/-- What unfolds to `{}`: nothing, or references that lead to nothing or around in a circle. -/
inductive Blank {κ : Type} (key : Reference → κ) (look : Reference → Schema) : List κ → Schema → Prop
  | empty (stack : List κ) : Blank key look stack .empty
  | seen {stack : List κ} {schema : Schema} {ref : Reference} (refers : schema.ref = some ref)
      (around : key ref ∈ stack) : Blank key look stack schema
  | fresh {stack : List κ} {schema : Schema} {ref : Reference} (refers : schema.ref = some ref)
      (fresh : key ref ∉ stack) (blank : Blank key look (key ref :: stack) (look ref)) :
      Blank key look stack schema

theorem unfolds_empty_iff {κ : Type} [DecidableEq κ] {key : Reference → κ} {stack : List κ}
    {schema : Schema} :
    Unfolds key components stack schema .empty ↔ Blank key (target components) stack schema := by
  constructor
  · rintro ⟨fuel, found⟩
    induction fuel generalizing stack schema with
    | zero => exact nomatch found
    | succ fuel ih =>
      cases refers : schema.ref with
      | none =>
        simp only [unfoldBy, refers] at found
        rw [(mapM_eq_some.mp found).of_empty]
        exact .empty stack
      | some ref =>
        by_cases seen : key ref ∈ stack
        · exact .seen refers seen
        · exact .fresh refers seen (ih (by simpa [unfoldBy, refers, seen] using found))
  · intro blank
    induction blank with
    | empty stack => exact ⟨1, rfl⟩
    | seen refers around => exact (unfolds_seen refers around).mpr rfl
    | fresh refers fresh _ ih => exact (unfolds_fresh refers fresh).mpr ih

abbrev LeadsNowhere (components : Components) : List Reference → Schema → Prop :=
  Blank (fun ref => ref) (target components)

/-- An unfolding of `schema` comes to `ref` while the components in `inner` are being expanded. -/
inductive Comes (components : Components) (inner : List Reference) (ref : Reference) :
    List Reference → Schema → Prop
  | here {schema : Schema} (refers : schema.ref = some ref) : Comes components inner ref inner schema
  | child {stack : List Reference} {schema child : Schema} (plain : schema.ref = none)
      (member : child ∈ schema.children) (comes : Comes components inner ref stack child) :
      Comes components inner ref stack schema
  | expanded {stack : List Reference} {schema : Schema} {first : Reference}
      (refers : schema.ref = some first) (fresh : first ∉ stack)
      (comes : Comes components inner ref (first :: stack) (target components first)) :
      Comes components inner ref stack schema

/-- A reference below a component with the same last key is one to that component, or leads to nothing. -/
def ToldApart (components : Components) (stack : List Reference) (schema : Schema) : Prop :=
  ∀ inner ref, Comes components inner ref stack schema → ref.name ∈ inner.map Reference.name →
    ref ∈ inner ∨ LeadsNowhere components (ref :: inner) (target components ref)

abbrev FullyUnfolds (components : Components) : List Reference → Schema → Schema → Prop :=
  Unfolds (fun ref => ref) components

theorem LeadsNowhere.toldApart {stack : List Reference} {schema : Schema}
    (nowhere : LeadsNowhere components stack schema) : ToldApart components stack schema := by
  induction nowhere with
  | empty stack =>
    intro inner ref comes
    cases comes with
    | here refers => exact nomatch refers
    | child _ member _ => exact nomatch member
    | expanded refers _ _ => exact nomatch refers
  | seen refers around =>
    intro inner ref comes _
    cases comes with
    | here refers_too =>
      cases refers.symm.trans refers_too
      exact Or.inl around
    | child plain _ _ => exact nomatch refers.symm.trans plain
    | expanded refers_too fresh _ =>
      cases refers.symm.trans refers_too
      exact absurd around fresh
  | fresh refers fresh blank ih =>
    intro inner ref comes
    cases comes with
    | here refers_too =>
      cases refers.symm.trans refers_too
      exact fun _ => Or.inr blank
    | child plain _ _ => exact nomatch refers.symm.trans plain
    | expanded refers_too _ deeper =>
      cases refers.symm.trans refers_too
      exact ih inner ref deeper

theorem toldApart_below {stack : List Reference} {schema : Schema} (plain : schema.ref = none) :
    ToldApart components stack schema ↔ ∀ child ∈ schema.children, ToldApart components stack child := by
  constructor
  · exact fun told child member inner ref comes => told inner ref (.child plain member comes)
  · intro told inner ref comes
    cases comes with
    | here refers => exact nomatch plain.symm.trans refers
    | child _ member deeper => exact told _ member inner ref deeper
    | expanded refers _ _ => exact nomatch plain.symm.trans refers

theorem toldApart_fresh {stack : List Reference} {schema : Schema} {ref : Reference}
    (refers : schema.ref = some ref) (fresh : ref ∉ stack) :
    ToldApart components stack schema ↔
      (ref.name ∈ stack.map Reference.name →
          LeadsNowhere components (ref :: stack) (target components ref)) ∧
        ToldApart components (ref :: stack) (target components ref) := by
  constructor
  · intro told
    exact ⟨fun named => (told stack ref (.here refers) named).resolve_left fresh,
      fun inner other comes => told inner other (.expanded refers fresh comes)⟩
  · rintro ⟨blank, told⟩ inner other comes
    cases comes with
    | here refers_too =>
      cases refers.symm.trans refers_too
      exact fun named => Or.inr (blank named)
    | child plain _ _ => exact nomatch refers.symm.trans plain
    | expanded refers_too _ deeper =>
      cases refers.symm.trans refers_too
      exact told inner other deeper

theorem same_unfolding_iff {stack : List Reference} {schema result resolved : Schema}
    (unfolds : FullyUnfolds components stack schema result)
    (resolves : Unfolds Reference.name components (stack.map Reference.name) schema resolved) :
    resolved = result ↔ ToldApart components stack schema := by
  obtain ⟨fuel, found⟩ := unfolds
  induction fuel generalizing stack schema result resolved with
  | zero => exact nomatch found
  | succ fuel ih =>
    cases refers : schema.ref with
    | none =>
      simp only [unfoldBy, refers] at found
      have lifted := mapM_eq_some.mp found
      have lifted_names := (unfolds_below refers).mp resolves
      rw [toldApart_below refers]
      constructor
      · rintro rfl child member
        obtain ⟨value, _, unfolded, named⟩ := exists_of_both lifted lifted_names member
        exact (ih named unfolded).mp rfl
      · intro told
        have same : Lifted (fun first second => unfoldBy (fun ref => ref) components fuel stack first =
            some second) schema resolved := by
          refine lifted_names.imp (fun child member value named => ?_)
          obtain ⟨unfolded, _, found_child, _⟩ := exists_of_both lifted lifted member
          rw [(ih named found_child).mpr (told child member)]
          exact found_child
        exact same.unique (fun _ _ _ one other => Option.some.inj (one.symm.trans other)) lifted
    | some ref =>
      by_cases seen : ref ∈ stack
      · have named : ref.name ∈ stack.map Reference.name := List.mem_map_of_mem seen
        have blank : result = .empty := by simpa [unfoldBy, refers, seen, eq_comm] using found
        rw [(unfolds_seen refers named).mp resolves, blank]
        exact ⟨fun _ => LeadsNowhere.toldApart (.seen refers seen), fun _ => rfl⟩
      · rw [toldApart_fresh refers seen]
        have found_target : unfoldBy (fun ref => ref) components fuel (ref :: stack)
            (target components ref) = some result := by
          simpa [unfoldBy, refers, seen] using found
        by_cases named : ref.name ∈ stack.map Reference.name
        · have blank_iff := @unfolds_empty_iff components _ _ (fun ref => ref) (ref :: stack)
            (target components ref)
          rw [(unfolds_seen refers named).mp resolves]
          constructor
          · rintro rfl
            have blank := blank_iff.mp ⟨fuel, found_target⟩
            exact ⟨fun _ => blank, LeadsNowhere.toldApart blank⟩
          · rintro ⟨blank, _⟩
            exact (blank_iff.mpr (blank named)).unique ⟨fuel, found_target⟩
        · have resolves_target := (unfolds_fresh refers named).mp resolves
          have below : resolved = result ↔ ToldApart components (ref :: stack) (target components ref) :=
            ih resolves_target found_target
          rw [below]
          exact ⟨fun told => ⟨fun inside => absurd inside named, told⟩, And.right⟩

end

/-- `#/components/schemas/.../properties/id`. -/
def id_of (name : String) (plain : ∀ part ∈ [name.toList], part ≠ [] ∧
    ∀ char ∈ part, char ∉ ['/', '#', '~', '%']) : Reference where
  parts := ["schemas".toList, name.toList, "properties".toList, "id".toList]
  some_part := by simp
  plain := by
    have others : ∀ part ∈ ["schemas".toList, "properties".toList, "id".toList], part ≠ [] ∧
        ∀ char ∈ part, char ∉ ['/', '#', '~', '%'] := by simp
    simp only [List.forall_mem_cons] at others plain ⊢
    exact ⟨others.1, plain.1, others.2⟩

end OpenWebui.ToolServers
