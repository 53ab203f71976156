import Mathlib.Data.List.Infix
import OpenWebui.Base.Dict

/-! Decoded JSON values as a dynamically typed program sees them: truth values, field access,
iteration and membership, with the exceptions these raise. -/

namespace OpenWebui

inductive Json where
  | null
  | bool (value : Bool)
  | num (value : Rat)
  | str (value : String)
  | arr (items : List Json)
  | obj (fields : List (String × Json))
  deriving Inhabited

abbrev Fields := List (String × Json)

/-- What an operation raises. `diverges` marks a loop that has not stopped
within the steps it was given. -/
inductive PyError where
  | typeError
  | attributeError
  | keyError
  | indexError
  | valueError
  | unboundLocalError
  | diverges
  deriving DecidableEq

theorem bind_eq_ok {ε : Type} {α β : Type} {first : Except ε α} {rest : α → Except ε β} {result : β} :
    (first >>= rest) = .ok result ↔ ∃ value, first = .ok value ∧ rest value = .ok result := by
  cases first <;> simp [bind, Except.bind]

theorem map_eq_ok {ε : Type} {α β : Type} {first : Except ε α} {change : α → β} {result : β} :
    first.map change = .ok result ↔ ∃ value, first = .ok value ∧ change value = result := by
  cases first <;> simp [Except.map]

theorem mapM_ok {ε : Type} {α β : Type} {step : α → Except ε β} {value : α → β} {items : List α}
    (each : ∀ item ∈ items, step item = .ok (value item)) :
    items.mapM step = .ok (items.map value) := by
  induction items with
  | nil => rfl
  | cons item rest ih =>
    rw [List.mapM_cons, each item (by simp), ih (fun other member => each other (by simp [member]))]
    rfl

theorem map_of_mapM {ε : Type} {α β : Type} {step : α → Except ε β} {items : List α}
    {results : List β} (done : items.mapM step = .ok results) :
    items.map step = results.map .ok := by
  induction items generalizing results with
  | nil =>
    obtain rfl := Except.ok.inj done
    rfl
  | cons item rest ih =>
    rw [List.mapM_cons] at done
    obtain ⟨first, found, done⟩ := bind_eq_ok.mp done
    obtain ⟨later, remaining, done⟩ := bind_eq_ok.mp done
    obtain rfl := Except.ok.inj done
    rw [List.map_cons, List.map_cons, found, ih remaining]

namespace Json

mutual

protected def decEq : (first second : Json) → Decidable (first = second)
  | .null, .null => isTrue rfl
  | .bool a, .bool b => decidable_of_iff (a = b) (by simp)
  | .num a, .num b => decidable_of_iff (a = b) (by simp)
  | .str a, .str b => decidable_of_iff (a = b) (by simp)
  | .arr a, .arr b => @decidable_of_iff _ (a = b) (by simp) (Json.decEqItems a b)
  | .obj a, .obj b => @decidable_of_iff _ (a = b) (by simp) (Json.decEqFields a b)
  | .null, .bool _ | .null, .num _ | .null, .str _ | .null, .arr _ | .null, .obj _ => isFalse nofun
  | .bool _, .null | .bool _, .num _ | .bool _, .str _ | .bool _, .arr _ | .bool _, .obj _ =>
    isFalse nofun
  | .num _, .null | .num _, .bool _ | .num _, .str _ | .num _, .arr _ | .num _, .obj _ =>
    isFalse nofun
  | .str _, .null | .str _, .bool _ | .str _, .num _ | .str _, .arr _ | .str _, .obj _ =>
    isFalse nofun
  | .arr _, .null | .arr _, .bool _ | .arr _, .num _ | .arr _, .str _ | .arr _, .obj _ =>
    isFalse nofun
  | .obj _, .null | .obj _, .bool _ | .obj _, .num _ | .obj _, .str _ | .obj _, .arr _ =>
    isFalse nofun

protected def decEqItems : (first second : List Json) → Decidable (first = second)
  | [], [] => isTrue rfl
  | [], _ :: _ => isFalse nofun
  | _ :: _, [] => isFalse nofun
  | x :: xs, y :: ys =>
    have := Json.decEq x y
    have := Json.decEqItems xs ys
    decidable_of_iff (x = y ∧ xs = ys) (by simp)

protected def decEqFields : (first second : List (String × Json)) → Decidable (first = second)
  | [], [] => isTrue rfl
  | [], _ :: _ => isFalse nofun
  | _ :: _, [] => isFalse nofun
  | (k, x) :: xs, (l, y) :: ys =>
    have := Json.decEq x y
    have := Json.decEqFields xs ys
    decidable_of_iff (k = l ∧ x = y ∧ xs = ys) (by simp [and_assoc])

end

instance : DecidableEq Json := Json.decEq

def truthy : Json → Bool
  | .null => false
  | .bool value => value
  | .num value => decide (value ≠ 0)
  | .str value => decide (value ≠ "")
  | .arr items => !items.isEmpty
  | .obj fields => !fields.isEmpty

/-- `first or second`. -/
def orElse (first second : Json) : Json := if first.truthy then first else second

def str? : Json → Option String
  | .str value => some value
  | _ => none

def obj? : Json → Option Fields
  | .obj fields => some fields
  | _ => none

def hashable : Json → Bool
  | .arr _ => false
  | .obj _ => false
  | _ => true

/-- The values a `for` loop over the value sees. -/
def iterate : Json → Except PyError (List Json)
  | .arr items => .ok items
  | .str value => .ok (value.toList.map (fun char => .str (String.singleton char)))
  | .obj fields => .ok (fields.map (fun field => .str field.1))
  | _ => .error .typeError

/-- `text in container`. -/
def contains (container : Json) (text : String) : Except PyError Bool :=
  match container with
  | .arr items => .ok (decide (Json.str text ∈ items))
  | .obj fields => .ok (decide (text ∈ Assoc.keys fields))
  | .str value => .ok (decide (text.toList <:+: value.toList))
  | _ => .error .typeError

@[simp] theorem truthy_null : truthy .null = false := rfl

@[simp] theorem truthy_num (value : Rat) : truthy (.num value) = decide (value ≠ 0) := rfl

@[simp] theorem truthy_str (value : String) : truthy (.str value) = decide (value ≠ "") := rfl

@[simp] theorem truthy_arr (items : List Json) : truthy (.arr items) = !items.isEmpty := rfl

@[simp] theorem truthy_obj (fields : Fields) : truthy (.obj fields) = !fields.isEmpty := rfl

theorem str?_eq_some {value : Json} {text : String} : value.str? = some text ↔ value = .str text := by
  cases value <;> simp [str?]

theorem obj?_eq_some {value : Json} {fields : Fields} :
    value.obj? = some fields ↔ value = .obj fields := by
  cases value <;> simp [obj?]

mutual

theorem fieldInduction {motive : Json → Prop}
    (obj : ∀ fields : Fields, (∀ entry ∈ fields, motive entry.2) → motive (.obj fields))
    (other : ∀ value : Json, value.obj? = none → motive value) : ∀ value : Json, motive value
  | .null => other _ rfl
  | .bool _ => other _ rfl
  | .num _ => other _ rfl
  | .str _ => other _ rfl
  | .arr _ => other _ rfl
  | .obj fields => obj fields (fieldInductionList obj other fields)

theorem fieldInductionList {motive : Json → Prop}
    (obj : ∀ fields : Fields, (∀ entry ∈ fields, motive entry.2) → motive (.obj fields))
    (other : ∀ value : Json, value.obj? = none → motive value) :
    ∀ fields : Fields, ∀ entry ∈ fields, motive entry.2
  | [] => nofun
  | (_, value) :: rest => by
    intro entry member
    rcases List.mem_cons.mp member with rfl | later
    · exact fieldInduction obj other value
    · exact fieldInductionList obj other rest entry later

end

end Json

/-- `fields.get(key)`. -/
def getField (fields : Fields) (key : String) : Json := (fields.lookup key).getD .null

/-- `fields.get(key, default)`. -/
def getFieldD (fields : Fields) (key : String) (default : Json) : Json :=
  (fields.lookup key).getD default

@[simp] theorem getField_nil (key : String) : getField [] key = .null := rfl

@[simp] theorem getField_set (fields : Fields) (key : String) (value : Json) (query : String) :
    getField (Assoc.set fields key value) query =
      if key = query then value else getField fields query := by
  unfold getField
  rw [Assoc.lookup_set]
  split <;> rfl

theorem getField_erase (fields : Fields) {key query : String} (different : key ≠ query) :
    getField (Assoc.erase fields key) query = getField fields query := by
  unfold getField
  rw [Assoc.lookup_erase, if_neg different]

theorem getField_of_lookup {fields : Fields} {key : String} {value : Json}
    (found : fields.lookup key = some value) : getField fields key = value := by
  simp [getField, found]

theorem getField_cons (field : String × Json) (rest : Fields) (key : String) :
    getField (field :: rest) key = if field.1 = key then field.2 else getField rest key := by
  unfold getField
  rw [Assoc.lookup_cons_self_or]
  split <;> rfl

theorem getField_merge (first second : Fields) (key : String) :
    getField (Assoc.merge first second) key =
      ((second.lookup key).or (first.lookup key)).getD .null := by
  simp [getField]

namespace Dict

universe v
variable {β : Type v}

/-- `dict.get(key)` where the key is a decoded value. -/
def getJson? (dict : Dict String β) (key : Json) : Except PyError (Option β) :=
  match key with
  | .str text => .ok (dict.get? text)
  | .arr _ => .error .typeError
  | .obj _ => .error .typeError
  | _ => .ok none

/-- `key in dict` where the key is a decoded value. -/
def hasJson (dict : Dict String β) (key : Json) : Except PyError Bool :=
  (dict.getJson? key).map Option.isSome

@[simp] theorem getJson?_str (dict : Dict String β) (text : String) :
    dict.getJson? (.str text) = .ok (dict.get? text) := rfl

@[simp] theorem getJson?_null (dict : Dict String β) : dict.getJson? .null = .ok none := rfl

@[simp] theorem hasJson_str (dict : Dict String β) (text : String) :
    dict.hasJson (.str text) = .ok (dict.get? text).isSome := rfl

@[simp] theorem hasJson_null (dict : Dict String β) : dict.hasJson .null = .ok false := rfl

end Dict

namespace Json

mutual

def loose : Json → Json → Bool
  | .null, .null => true
  | .bool first, .bool second => first == second
  | .bool first, .num second => decide ((if first then 1 else 0) = second)
  | .num first, .bool second => decide (first = if second then 1 else 0)
  | .num first, .num second => decide (first = second)
  | .str first, .str second => first == second
  | .arr first, .arr second => looseItems first second
  | .obj first, .obj second => first.length == second.length && looseFields first second
  | _, _ => false

def looseItems : List Json → List Json → Bool
  | [], [] => true
  | x :: xs, y :: ys => loose x y && looseItems xs ys
  | _, _ => false

def looseFields : Fields → Fields → Bool
  | [], _ => true
  | (key, x) :: rest, other =>
    (match other.lookup key with
      | some y => loose x y
      | none => false) && looseFields rest other

end

/-- `first == second`: an object is equal to itself before its fields are compared. -/
def equal (first second : Json) : Bool := decide (first = second) || loose first second

mutual

def unique : Json → Bool
  | .obj fields => decide (Assoc.keys fields).Nodup && uniqueFields fields
  | .arr items => uniqueItems items
  | _ => true

def uniqueItems : List Json → Bool
  | [] => true
  | item :: rest => unique item && uniqueItems rest

def uniqueFields : Fields → Bool
  | [] => true
  | (_, value) :: rest => unique value && uniqueFields rest

end

@[simp] theorem equal_refl (value : Json) : equal value value = true := by simp [equal]

theorem eq_of_equal_num {first second : Rat} (same : equal (.num first) (.num second) = true) :
    first = second := by
  simpa [equal, loose] using same

theorem looseFields_lookup {first second : Fields} (same : looseFields first second = true)
    {key : String} {x : Json} (found : first.lookup key = some x) :
    ∃ y, second.lookup key = some y ∧ loose x y = true := by
  induction first with
  | nil => cases found
  | cons field rest ih =>
    obtain ⟨other, value⟩ := field
    simp only [looseFields, Bool.and_eq_true] at same
    rw [Assoc.lookup_cons_self_or] at found
    split at found
    · rename_i matched
      cases matched
      cases Option.some.inj found
      cases stored : second.lookup other with
      | none => simp [stored] at same
      | some y => exact ⟨y, rfl, by simpa [stored] using same.1⟩
    · exact ih same.2 found

theorem equal_lookup {first second : Fields} (same : equal (.obj first) (.obj second) = true)
    {key : String} {x : Json} (found : first.lookup key = some x) :
    ∃ y, second.lookup key = some y ∧ equal x y = true := by
  simp only [equal, Bool.or_eq_true, decide_eq_true_eq, obj.injEq, loose, Bool.and_eq_true] at same
  rcases same with rfl | ⟨_, fields⟩
  · exact ⟨x, found, equal_refl x⟩
  · obtain ⟨y, stored, alike⟩ := looseFields_lookup fields found
    exact ⟨y, stored, by simp [equal, alike]⟩

theorem unique_obj {fields : Fields} :
    unique (.obj fields) = true ↔
      (Assoc.keys fields).Nodup ∧ uniqueFields fields = true := by
  simp [unique]

theorem unique_of_lookup {fields : Fields} (whole : uniqueFields fields = true) {key : String}
    {value : Json} (found : fields.lookup key = some value) : unique value = true := by
  induction fields with
  | nil => cases found
  | cons field rest ih =>
    obtain ⟨other, first⟩ := field
    simp only [uniqueFields, Bool.and_eq_true] at whole
    rw [Assoc.lookup_cons_self_or] at found
    split at found
    · exact Option.some.inj found ▸ whole.1
    · exact ih whole.2 found

theorem unique_set {fields : Fields} (unique : (obj fields).unique = true) (key : String)
    {value : Json} (inner : value.unique = true) :
    (obj (Assoc.set fields key value)).unique = true := by
  obtain ⟨distinct, values⟩ := unique_obj.mp unique
  refine unique_obj.mpr ⟨Assoc.nodup_keys_set distinct key value, ?_⟩
  clear unique distinct
  induction fields with
  | nil => simp [Assoc.set, uniqueFields, inner]
  | cons field rest ih =>
    obtain ⟨other, old⟩ := field
    simp only [uniqueFields, Bool.and_eq_true] at values
    unfold Assoc.set
    split
    · simp [uniqueFields, inner, values.2]
    · simp [uniqueFields, values.1, ih values.2]

def atPath : List String → Json → Option Json
  | [], value => some value
  | part :: rest, .obj fields => (fields.lookup part).bind (atPath rest)
  | _ :: _, _ => none

def fieldsOf : Option Json → Fields
  | some (.obj fields) => fields
  | _ => []

def assign (target : Fields) : List String → Json → Fields
  | [], _ => target
  | [part], value => Assoc.set target part value
  | part :: next :: rest, value =>
    Assoc.set target part (.obj (assign (fieldsOf (target.lookup part)) (next :: rest) value))

/-- Not an object. -/
def Leaf (value : Json) : Prop := ∀ fields, value ≠ .obj fields

theorem atPath_cons (part : String) (rest : List String) (fields : Fields) :
    atPath (part :: rest) (.obj fields) = (fields.lookup part).bind (atPath rest) := rfl

theorem atPath_append (path rest : List String) (value : Json) :
    atPath (path ++ rest) value = (atPath path value).bind (atPath rest) := by
  induction path generalizing value with
  | nil => rfl
  | cons part path ih =>
    cases value with
    | obj fields =>
      rw [List.cons_append, atPath_cons, atPath_cons, Option.bind_assoc]
      congr 1
      funext found
      exact ih found
    | _ => rfl

theorem atPath_leaf {value : Json} (leaf : Leaf value) {path : List String} {found : Json}
    (there : atPath path value = some found) : path = [] := by
  cases path with
  | nil => rfl
  | cons part rest =>
    cases value with
    | obj fields => exact absurd rfl (leaf fields)
    | _ => cases there

theorem eq_of_starts {value leaf found : Json} {path longer : List String} (isLeaf : Leaf leaf)
    (here : atPath path value = some leaf) (there : atPath longer value = some found)
    (begins : path <+: longer) : path = longer := by
  obtain ⟨rest, rfl⟩ := begins
  rw [atPath_append, here, Option.bind_some] at there
  rw [atPath_leaf isLeaf there, List.append_nil]

theorem atPath_fieldsOf {held : Option Json} {part : String} {rest : List String} :
    held.bind (atPath (part :: rest)) = atPath (part :: rest) (.obj (fieldsOf held)) := by
  cases held with
  | none => rfl
  | some value =>
    cases value with
    | obj fields => rfl
    | _ => rfl

theorem atPath_assign_self (target : Fields) {path : List String} (some_path : path ≠ [])
    (value : Json) : atPath path (.obj (assign target path value)) = some value := by
  induction path generalizing target with
  | nil => exact absurd rfl some_path
  | cons part rest ih =>
    cases rest with
    | nil => simp [assign, atPath]
    | cons next rest =>
      rw [assign, atPath_cons, Assoc.lookup_set, if_pos rfl, Option.bind_some]
      exact ih _ (List.cons_ne_nil next rest)

theorem atPath_assign_other (target : Fields) {path query : List String}
    (before : ¬ query <+: path) (after : ¬ path <+: query) (value : Json) :
    atPath query (.obj (assign target path value)) = atPath query (.obj target) := by
  induction path generalizing target query with
  | nil => exact absurd (List.nil_prefix) after
  | cons part rest ih =>
    cases query with
    | nil => exact absurd (List.nil_prefix) before
    | cons first query =>
      by_cases same : part = first
      · subst same
        rw [List.cons_prefix_cons, not_and] at before after
        have before := before rfl
        have after := after rfl
        cases rest with
        | nil => exact absurd (List.nil_prefix) after
        | cons next rest =>
          cases query with
          | nil => exact absurd (List.nil_prefix) before
          | cons second query =>
            rw [assign, atPath_cons, Assoc.lookup_set, if_pos rfl, Option.bind_some,
              atPath_cons part (second :: query) target, atPath_fieldsOf]
            exact ih _ before after
      · cases rest with
        | nil => rw [assign, atPath_cons, Assoc.lookup_set, if_neg same, atPath_cons]
        | cons next rest => rw [assign, atPath_cons, Assoc.lookup_set, if_neg same, atPath_cons]

theorem eq_or_atPath_of_assign {target : Fields} {path query : List String} (some_path : path ≠ [])
    {value found : Json} (isLeaf : Leaf value) (leaf : Leaf found)
    (there : atPath query (.obj (assign target path value)) = some found) :
    query = path ∨ atPath query (.obj target) = some found := by
  have here := atPath_assign_self target some_path value
  by_cases before : query <+: path
  · exact Or.inl (eq_of_starts leaf there here before)
  · by_cases after : path <+: query
    · exact Or.inl (eq_of_starts isLeaf here there after).symm
    · rw [atPath_assign_other target before after] at there
      exact Or.inr there

end Json

end OpenWebui
