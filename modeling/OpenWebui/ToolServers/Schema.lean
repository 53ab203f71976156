import Mathlib.Data.List.Forall2
import Mathlib.Data.Option.Basic
import OpenWebui.Base.Json
import OpenWebui.Base.Url

/-! JSON schemas with references to components, `resolve_schema`, which fills in the components, and
what such an unfolding of references does at each schema, whatever it takes two references to be the
same by. -/

namespace OpenWebui.ToolServers

/-- `#/components/...`: the keys that lead to a component, which need no escapes. -/
structure Reference where
  parts : List (List Char)
  some_part : parts ≠ []
  plain : ∀ part ∈ parts, part ≠ [] ∧ ∀ char ∈ part, char ∉ ['/', '#', '~', '%']
deriving DecidableEq

def Reference.text (ref : Reference) : List Char := '#' :: Url.joined ("components".toList :: ref.parts)

/-- A JSON schema; what is absent is empty, and `type` null. `rest` are the fields that hold no schema. -/
structure Schema where
  ref : Option Reference
  type : Json
  properties : List (String × Schema)
  items : Option Schema
  oneOf : List Schema
  anyOf : List Schema
  allOf : List Schema
  rest : Fields

namespace Schema

/-- `{}`. -/
def empty : Schema := ⟨none, .null, [], none, [], [], [], []⟩

def isEmpty (schema : Schema) : Bool :=
  schema.ref.isNone && decide (schema.type = .null) && schema.properties.isEmpty && schema.items.isNone &&
    schema.oneOf.isEmpty && schema.anyOf.isEmpty && schema.allOf.isEmpty && schema.rest.isEmpty

def children (schema : Schema) : List Schema :=
  schema.properties.map Prod.snd ++ schema.items.toList ++
    (schema.oneOf ++ schema.anyOf ++ schema.allOf)

def mapM (change : Schema → Option Schema) (schema : Schema) : Option Schema := do
  let properties ← schema.properties.mapM (fun field =>
    (change field.2).map (fun value => (field.1, value)))
  let items ← schema.items.mapM change
  let oneOf ← schema.oneOf.mapM change
  let anyOf ← schema.anyOf.mapM change
  let allOf ← schema.allOf.mapM change
  some { schema with
    properties := properties
    items := items
    oneOf := oneOf
    anyOf := anyOf
    allOf := allOf }

end Schema

abbrev Components := Dict (List (List Char)) Schema

/-- `ref_path.split('/')[-1]`. -/
def schema_name (ref_path : List Char) : List Char := (ref_path.splitOn '/').getLastD []

/-- `ref_path.strip('#/').split('/')`. -/
def ref_parts (ref_path : List Char) : List (List Char) :=
  let start := ref_path.dropWhile (fun char => decide (char ∈ ['#', '/']))
  (start.reverse.dropWhile (fun char => decide (char ∈ ['#', '/']))).reverse.splitOn '/'

/-- What stands in the components, or `{}`. -/
def resolvePath (components : Components) (parts : List (List Char)) : Schema :=
  (components.get? parts).getD .empty

/-- `none` stands for a recursion that has not ended within the fuel. -/
def resolve_schema (components : Components) :
    Nat → List (List Char) → Schema → Option Schema
  | 0, _, _ => none
  | fuel + 1, resolved_schemas, schema =>
    if schema.isEmpty then some .empty
    else
      match schema.ref with
      | some ref =>
        let ref_path := ref.text
        if schema_name ref_path ∈ resolved_schemas then some .empty
        else
          resolve_schema components fuel (schema_name ref_path :: resolved_schemas)
            (resolvePath components (ref_parts ref_path).tail)
      | none => schema.mapM (resolve_schema components fuel resolved_schemas)

section Reference

variable (ref : Reference)

theorem part_free {part : List Char} (listed : part ∈ "components".toList :: ref.parts) : '/' ∉ part := by
  rcases List.mem_cons.mp listed with rfl | member
  · decide
  · exact fun slash => (ref.plain part member).2 '/' slash (by decide)

def Reference.name : List Char := ref.parts.getLast ref.some_part

theorem schema_name_text : schema_name ref.text = ref.name := by
  have split := @Url.split_joined _ (fun part => part_free ref) ['#'] (by decide)
  rw [List.singleton_append] at split
  rw [schema_name, Reference.text, split, List.getLastD_cons, List.getLastD_cons, Reference.name,
    List.getLastD_eq_getLast?, List.getLast?_eq_some_getLast ref.some_part, Option.getD_some]

theorem ref_parts_text : (ref_parts ref.text).tail = ref.parts := by
  obtain ⟨before, last, whole⟩ := (List.eq_nil_or_concat' ref.parts).resolve_left ref.some_part
  obtain ⟨filled, plain⟩ := ref.plain last (by simp [whole])
  obtain ⟨start, char, last_whole⟩ := (List.eq_nil_or_concat' last).resolve_left filled
  have stays : ¬ decide (char ∈ ['#', '/']) = true := by
    have outside := plain char (by simp [last_whole])
    simp only [List.mem_cons, not_or] at outside
    simp [outside.1, outside.2.1]
  have ends : "components".toList ++ Url.joined ref.parts =
      "components".toList ++ (Url.joined before ++ '/' :: start) ++ [char] := by
    simp [whole, last_whole, Url.joined]
  have stripped : ref.text.dropWhile (fun char => decide (char ∈ ['#', '/'])) =
      "components".toList ++ Url.joined ref.parts := rfl
  have split := @Url.split_joined _ (fun part listed => part_free ref (List.mem_cons_of_mem _ listed))
    "components".toList (by decide)
  rw [ref_parts]
  simp only [stripped]
  rw [ends, List.reverse_concat,
    List.dropWhile_cons_of_neg (p := fun char => decide (char ∈ ['#', '/'])) stays, ← List.reverse_concat,
    List.reverse_reverse, ← ends, split, List.tail_cons]

end Reference

namespace Schema

/-- Two schemas with the same fields and, in the same places, related schemas below them. -/
structure Lifted (related : Schema → Schema → Prop) (first second : Schema) : Prop where
  ref : second.ref = first.ref
  type : second.type = first.type
  rest : second.rest = first.rest
  properties : List.Forall₂ (fun old new => old.1 = new.1 ∧ related old.2 new.2) first.properties
    second.properties
  items : Option.Rel related first.items second.items
  oneOf : List.Forall₂ related first.oneOf second.oneOf
  anyOf : List.Forall₂ related first.anyOf second.anyOf
  allOf : List.Forall₂ related first.allOf second.allOf

theorem sizeOf_child {schema child : Schema} (member : child ∈ schema.children) :
    sizeOf child < sizeOf schema := by
  obtain ⟨ref, type, properties, items, oneOf, anyOf, allOf, rest⟩ := schema
  simp only [children, List.mem_append, List.mem_map, Option.mem_toList] at member
  rcases member with (⟨field, listed, rfl⟩ | same) | (listed | listed) | listed
  · have inside := List.sizeOf_lt_of_mem listed
    obtain ⟨name, value⟩ := field
    simp only [Prod.mk.sizeOf_spec, mk.sizeOf_spec] at inside ⊢
    omega
  · subst same
    simp only [mk.sizeOf_spec, Option.some.sizeOf_spec]
    omega
  · have inside := List.sizeOf_lt_of_mem listed
    simp only [mk.sizeOf_spec]
    omega
  · have inside := List.sizeOf_lt_of_mem listed
    simp only [mk.sizeOf_spec]
    omega
  · have inside := List.sizeOf_lt_of_mem listed
    simp only [mk.sizeOf_spec]
    omega

theorem below_induction {motive : Schema → Prop}
    (step : ∀ schema, (∀ child ∈ schema.children, motive child) → motive schema) (schema : Schema) :
    motive schema := by
  induction size : sizeOf schema using Nat.strongRecOn generalizing schema with
  | _ size ih =>
    subst size
    exact step schema (fun child member => ih _ (sizeOf_child member) child rfl)

theorem listM_eq_some {α β : Type} {change : α → Option β} {old : List α} {new : List β} :
    old.mapM change = some new ↔ List.Forall₂ (fun first second => change first = some second) old new := by
  induction old generalizing new with
  | nil =>
    constructor
    · intro same
      cases same
      exact .nil
    · intro same
      cases same
      rfl
  | cons first rest ih =>
    rw [List.mapM_cons]
    constructor
    · intro same
      obtain ⟨value, changed, later⟩ := Option.bind_eq_some_iff.mp same
      obtain ⟨values, changed_rest, whole⟩ := Option.bind_eq_some_iff.mp later
      cases whole
      exact .cons changed (ih.mp changed_rest)
    · intro same
      cases same with
      | cons changed later => simp [changed, ih.mpr later]

theorem optionM_eq_some {α β : Type} {change : α → Option β} {old : Option α} {new : Option β} :
    old.mapM change = some new ↔ Option.Rel (fun first second => change first = some second) old new := by
  cases old with
  | none =>
    constructor
    · intro same
      cases same
      exact .none
    · intro same
      cases same
      rfl
  | some value =>
    constructor
    · intro same
      obtain ⟨changed, found, whole⟩ := Option.map_eq_some_iff.mp same
      rw [← whole]
      exact .some found
    · intro same
      cases same with
      | some found => exact Option.map_eq_some_iff.mpr ⟨_, found, rfl⟩

theorem mapM_eq_some {change : Schema → Option Schema} {old new : Schema} :
    old.mapM change = some new ↔ Lifted (fun first second => change first = some second) old new := by
  have field : ∀ first second : String × Schema,
      (change first.2).map (fun value => (first.1, value)) = some second ↔
        first.1 = second.1 ∧ change first.2 = some second.2 := by
    intro first second
    rw [Option.map_eq_some_iff]
    constructor
    · rintro ⟨value, changed, rfl⟩
      exact ⟨rfl, changed⟩
    · rintro ⟨name, changed⟩
      exact ⟨second.2, changed, by rw [name]⟩
  constructor
  · intro mapped
    obtain ⟨properties, of_properties, mapped⟩ := Option.bind_eq_some_iff.mp mapped
    obtain ⟨items, of_items, mapped⟩ := Option.bind_eq_some_iff.mp mapped
    obtain ⟨oneOf, of_oneOf, mapped⟩ := Option.bind_eq_some_iff.mp mapped
    obtain ⟨anyOf, of_anyOf, mapped⟩ := Option.bind_eq_some_iff.mp mapped
    obtain ⟨allOf, of_allOf, mapped⟩ := Option.bind_eq_some_iff.mp mapped
    cases mapped
    exact ⟨rfl, rfl, rfl, (listM_eq_some.mp of_properties).imp (fun _ _ => (field _ _).mp),
      optionM_eq_some.mp of_items, listM_eq_some.mp of_oneOf, listM_eq_some.mp of_anyOf,
      listM_eq_some.mp of_allOf⟩
  · intro lifted
    have of_properties := listM_eq_some.mpr (lifted.properties.imp (fun _ _ => (field _ _).mpr))
    have of_items := optionM_eq_some.mpr lifted.items
    have of_oneOf := listM_eq_some.mpr lifted.oneOf
    have of_anyOf := listM_eq_some.mpr lifted.anyOf
    have of_allOf := listM_eq_some.mpr lifted.allOf
    obtain ⟨ref, type, properties, items, oneOf, anyOf, allOf, rest⟩ := new
    obtain rfl : ref = old.ref := lifted.ref
    obtain rfl : type = old.type := lifted.type
    obtain rfl : rest = old.rest := lifted.rest
    simp only [mapM, of_properties, of_items, of_oneOf, of_anyOf, of_allOf, Option.bind_eq_bind,
      Option.bind_some]

theorem Lifted.children {related : Schema → Schema → Prop} {first second : Schema}
    (lifted : Lifted related first second) :
    List.Forall₂ related first.children second.children := by
  have properties : List.Forall₂ related (first.properties.map Prod.snd)
      (second.properties.map Prod.snd) :=
    List.forall₂_map_left_iff.mpr (List.forall₂_map_right_iff.mpr
      (lifted.properties.imp (fun _ _ both => both.2)))
  have items : List.Forall₂ related first.items.toList second.items.toList := by
    have same := lifted.items
    generalize first.items = old, second.items = new at same
    cases same with
    | none => exact .nil
    | some related => exact .cons related .nil
  exact List.rel_append (List.rel_append properties items)
    (List.rel_append (List.rel_append lifted.oneOf lifted.anyOf) lifted.allOf)

theorem forall₂_of_mem {α β : Type} {related other : α → β → Prop} {first : List α} {second : List β}
    (all : List.Forall₂ related first second)
    (implied : ∀ old ∈ first, ∀ new, related old new → other old new) :
    List.Forall₂ other first second := by
  induction all with
  | nil => exact .nil
  | cons head _ ih =>
    exact .cons (implied _ List.mem_cons_self _ head)
      (ih (fun old member => implied old (List.mem_cons_of_mem _ member)))

theorem Lifted.imp {related other : Schema → Schema → Prop} {first second : Schema}
    (lifted : Lifted related first second)
    (implied : ∀ old ∈ first.children, ∀ new, related old new → other old new) :
    Lifted other first second where
  ref := lifted.ref
  type := lifted.type
  rest := lifted.rest
  properties := forall₂_of_mem lifted.properties (fun old member _ both =>
    ⟨both.1, implied _ (by
      have listed := List.mem_map_of_mem (f := Prod.snd) member
      simp [Schema.children, listed]) _ both.2⟩)
  items := by
    have below : ∀ old, first.items = some old → old ∈ first.children := by
      intro old found
      simp [Schema.children, found]
    have same := lifted.items
    generalize first.items = before, second.items = after at same below
    cases same with
    | none => exact .none
    | some related => exact .some (implied _ (below _ rfl) _ related)
  oneOf := forall₂_of_mem lifted.oneOf (fun old member => implied old (by
    simp [Schema.children, member]))
  anyOf := forall₂_of_mem lifted.anyOf (fun old member => implied old (by
    simp [Schema.children, member]))
  allOf := forall₂_of_mem lifted.allOf (fun old member => implied old (by
    simp [Schema.children, member]))

theorem exists_of_both {related other : Schema → Schema → Prop} {first second : Schema}
    (lifted : Lifted related first second) (lifted_other : Lifted other first second)
    {child : Schema} (member : child ∈ first.children) :
    ∃ value ∈ second.children, related child value ∧ other child value := by
  have all := lifted.children
  have all_other := lifted_other.children
  revert member all all_other
  generalize first.children = children, second.children = values
  intro member all all_other
  induction all with
  | nil => cases member
  | cons head later ih =>
    cases all_other with
    | cons head_other later_other =>
      rcases List.mem_cons.mp member with rfl | below
      · exact ⟨_, List.mem_cons_self, head, head_other⟩
      · obtain ⟨value, listed, both⟩ := ih below later_other
        exact ⟨value, List.mem_cons_of_mem _ listed, both⟩

theorem Lifted.origin {related : Schema → Schema → Prop} {first second : Schema}
    (lifted : Lifted related first second) {value : Schema} (member : value ∈ second.children) :
    ∃ child ∈ first.children, related child value := by
  have all := lifted.children
  revert member all
  generalize first.children = children, second.children = values
  intro member all
  induction all with
  | nil => cases member
  | cons head later ih =>
    rcases List.mem_cons.mp member with rfl | below
    · exact ⟨_, List.mem_cons_self, head⟩
    · obtain ⟨child, listed, same⟩ := ih below
      exact ⟨child, List.mem_cons_of_mem _ listed, same⟩

theorem exists_forall₂ {α β : Type} {related : α → β → Prop} {first : List α}
    (each : ∀ old ∈ first, ∃ new, related old new) : ∃ second, List.Forall₂ related first second := by
  induction first with
  | nil => exact ⟨[], .nil⟩
  | cons old later ih =>
    obtain ⟨new, head⟩ := each old List.mem_cons_self
    obtain ⟨values, tail⟩ := ih (fun other member => each other (List.mem_cons_of_mem _ member))
    exact ⟨new :: values, .cons head tail⟩

theorem exists_lifted {related : Schema → Schema → Prop} (schema : Schema)
    (each : ∀ child ∈ schema.children, ∃ value, related child value) :
    ∃ value, Lifted related schema value := by
  obtain ⟨properties, of_properties⟩ := @exists_forall₂ _ _
    (fun (old new : String × Schema) => old.1 = new.1 ∧ related old.2 new.2) schema.properties (by
      intro old member
      have listed := List.mem_map_of_mem (f := Prod.snd) member
      obtain ⟨value, found⟩ := each old.2 (by simp [children, listed])
      exact ⟨(old.1, value), rfl, found⟩)
  have of_items : ∃ items, Option.Rel related schema.items items := by
    have below : ∀ child, schema.items = some child → child ∈ schema.children := by
      intro child found
      simp [children, found]
    generalize schema.items = before at below
    cases before with
    | none => exact ⟨none, .none⟩
    | some child =>
      obtain ⟨value, found⟩ := each child (below child rfl)
      exact ⟨some value, .some found⟩
  obtain ⟨items, of_items⟩ := of_items
  obtain ⟨oneOf, of_oneOf⟩ := @exists_forall₂ _ _ related schema.oneOf
    (fun child member => each child (by simp [children, member]))
  obtain ⟨anyOf, of_anyOf⟩ := @exists_forall₂ _ _ related schema.anyOf
    (fun child member => each child (by simp [children, member]))
  obtain ⟨allOf, of_allOf⟩ := @exists_forall₂ _ _ related schema.allOf
    (fun child member => each child (by simp [children, member]))
  exact ⟨⟨schema.ref, schema.type, properties, items, oneOf, anyOf, allOf, schema.rest⟩, rfl, rfl, rfl,
    of_properties, of_items, of_oneOf, of_anyOf, of_allOf⟩

theorem Lifted.of_empty {related : Schema → Schema → Prop} {schema : Schema}
    (lifted : Lifted related schema .empty) : schema = .empty := by
  obtain ⟨ref, type, properties, items, oneOf, anyOf, allOf, rest⟩ := schema
  obtain ⟨rfl, rfl, rfl, of_properties, of_items, of_oneOf, of_anyOf, of_allOf⟩ := lifted
  cases of_properties
  cases of_items
  cases of_oneOf
  cases of_anyOf
  cases of_allOf
  rfl

theorem Lifted.unique {related : Schema → Schema → Prop} {first second third : Schema}
    (functional : ∀ old one other, related old one → related old other → one = other)
    (lifted : Lifted related first second) (lifted_too : Lifted related first third) : second = third := by
  have below : Relator.RightUnique related := fun old one other => functional old one other
  have fields : Relator.RightUnique (fun old new : String × Schema =>
      old.1 = new.1 ∧ related old.2 new.2) := by
    rintro old one other ⟨name, inside⟩ ⟨name_too, inside_too⟩
    exact Prod.ext (name.symm.trans name_too) (functional _ _ _ inside inside_too)
  have items : second.items = third.items := by
    have one := lifted.items
    have other := lifted_too.items
    generalize first.items = old, second.items = new, third.items = last at one other
    cases one with
    | none =>
      cases other
      rfl
    | some inside =>
      cases other with
      | some inside_too => rw [functional _ _ _ inside inside_too]
  obtain ⟨ref, type, properties, _, oneOf, anyOf, allOf, rest⟩ := second
  obtain ⟨ref', type', properties', _, oneOf', anyOf', allOf', rest'⟩ := third
  obtain rfl : ref = ref' := lifted.ref.trans lifted_too.ref.symm
  obtain rfl : type = type' := lifted.type.trans lifted_too.type.symm
  obtain rfl : rest = rest' := lifted.rest.trans lifted_too.rest.symm
  obtain rfl : properties = properties' := fields.forall₂ lifted.properties lifted_too.properties
  obtain rfl : oneOf = oneOf' := below.forall₂ lifted.oneOf lifted_too.oneOf
  obtain rfl : anyOf = anyOf' := below.forall₂ lifted.anyOf lifted_too.anyOf
  obtain rfl : allOf = allOf' := below.forall₂ lifted.allOf lifted_too.allOf
  simp only at items
  rw [items]

end Schema

end OpenWebui.ToolServers
