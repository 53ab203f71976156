import OpenWebui.Base.Json

/-! Token usage: payloads of several providers are normalised to common token
fields, and the usage of several model calls is added up. -/

namespace OpenWebui.Utils

/-- `a or b or … or 0`. -/
def firstCount (usage : Fields) : List String → Json
  | [] => .num 0
  | key :: rest => (getField usage key).orElse (firstCount usage rest)

def inputKeys : List String := ["input_tokens", "prompt_tokens", "prompt_eval_count", "prompt_n"]

def outputKeys : List String := ["output_tokens", "completion_tokens", "eval_count", "predicted_n"]

def asNumber : Json → Option Rat
  | .bool value => some (if value then 1 else 0)
  | .num value => some value
  | _ => none

/-- `first + second`. -/
def pyAdd (first second : Json) : Except PyError Json :=
  match first, second with
  | .str x, .str y => .ok (.str (x ++ y))
  | .arr xs, .arr ys => .ok (.arr (xs ++ ys))
  | x, y =>
    match asNumber x, asNumber y with
    | some a, some b => .ok (.num (a + b))
    | _, _ => .error .typeError

def truncate (value : Rat) : Int := if 0 ≤ value then value.floor else value.ceil

def readDigits (digits : List Char) : Option Nat :=
  if digits.isEmpty then none
  else digits.foldl (fun value digit =>
    if digit.isDigit then value.map (fun number => 10 * number + (digit.toNat - '0'.toNat))
    else none) (some 0)

def readInt (text : String) : Option Int :=
  let trimmed := ((text.toList.dropWhile Char.isWhitespace).reverse.dropWhile
    Char.isWhitespace).reverse
  match trimmed with
  | '-' :: digits => (readDigits digits).map (fun number => -(number : Int))
  | '+' :: digits => (readDigits digits).map (fun number => (number : Int))
  | digits => (readDigits digits).map (fun number => (number : Int))

/-- `int(value)`. -/
def pyInt (value : Json) : Except PyError Int :=
  match value with
  | .str text => (readInt text).elim (.error .valueError) .ok
  | other => (asNumber other).elim (.error .typeError) (fun number => .ok (truncate number))

/-- `usage.get('total_tokens') or (input_tokens + output_tokens)`. -/
def totalTokens (usage : Fields) (input_tokens output_tokens : Json) : Except PyError Json :=
  if (getField usage "total_tokens").truthy then .ok (getField usage "total_tokens")
  else pyAdd input_tokens output_tokens

def normalize_usage (usage : Fields) : Except PyError Fields :=
  if usage.isEmpty then .ok []
  else do
    let input_tokens := firstCount usage inputKeys
    let output_tokens := firstCount usage outputKeys
    let total_tokens ← totalTokens usage input_tokens output_tokens
    let input ← pyInt input_tokens
    let output ← pyInt output_tokens
    let total ← pyInt total_tokens
    .ok (Assoc.set (Assoc.set (Assoc.set usage "input_tokens" (.num input))
      "output_tokens" (.num output)) "total_tokens" (.num total))

/-- `USAGE_SUMMABLE_KEYS`. -/
def summableKeys : List String :=
  ["input_tokens", "output_tokens", "total_tokens", "cost", "total_cost", "input_cost",
    "output_cost", "prompt_cost", "completion_cost"]

/-- `USAGE_DETAIL_KEYS`. -/
def detailKeys : List String :=
  ["prompt_tokens_details", "completion_tokens_details", "input_tokens_details",
    "output_tokens_details"]

def numeric? : Json → Option Rat
  | .num value => some value
  | _ => none

@[simp] theorem numeric?_num (value : Rat) : numeric? (.num value) = some value := rfl

def addNumeric (current incoming otherwise : Json) : Json :=
  if (numeric? current).isSome || (numeric? incoming).isSome then
    .num ((numeric? current).getD 0 + (numeric? incoming).getD 0)
  else otherwise

mutual

def settle : Json → Json
  | .obj fields => .obj (settleFields fields)
  | other => addNumeric other (.num 0) other

def settleFields : Fields → Fields
  | [] => []
  | (key, value) :: rest => (key, settle value) :: settleFields rest

end

def fieldsOf (value : Json) : Fields := value.obj?.getD []

@[simp] theorem fieldsOf_obj (fields : Fields) : fieldsOf (.obj fields) = fields := rfl

mutual

def combine (current : Json) : Json → Json
  | .obj incoming =>
    .obj (Assoc.merge (settleFields (fieldsOf current)) (combineFields (fieldsOf current) incoming))
  | incoming =>
    if current.obj?.isSome then .obj (settleFields (fieldsOf current))
    else addNumeric current incoming incoming

def combineFields (current : Fields) : Fields → Fields
  | [] => []
  | (key, value) :: rest =>
    (key, combine (getFieldD current key (.num 0)) value) :: combineFields current rest

end

/-- `_merge_numeric_usage_map`. -/
def mergeNumericUsageMap (current incoming : Fields) : Fields :=
  Assoc.merge (settleFields current) (combineFields current incoming)

/-- The value of a key in the merge of two normalised usages; `latest` is the
one of `{**current, **incoming}`. -/
def mergedValue (current incoming : Fields) (key : String) (latest : Json) : Json :=
  if key ∈ summableKeys then
    addNumeric (getFieldD current key (.num 0)) (getFieldD incoming key (.num 0)) latest
  else if key ∈ detailKeys ∧
      ((getField current key).obj?.isSome ∨ (getField incoming key).obj?.isSome) then
    .obj (mergeNumericUsageMap (fieldsOf (getField current key)) (fieldsOf (getField incoming key)))
  else latest

def addUsage (current incoming : Fields) : Fields :=
  let result := (Assoc.merge current incoming).map (fun entry =>
    (entry.1, mergedValue current incoming entry.1 entry.2))
  let prompt := ((getField incoming "prompt_tokens").orElse (getField incoming "input_tokens")).orElse
    (getFieldD current "prompt_tokens" (.num 0))
  let completion := ((getField incoming "completion_tokens").orElse
    (getField incoming "output_tokens")).orElse (getFieldD current "completion_tokens" (.num 0))
  Assoc.set (Assoc.set result "prompt_tokens" prompt) "completion_tokens" completion

def merge_usage (current incoming : Fields) : Except PyError Fields := do
  let current_usage ← normalize_usage current
  let incoming_usage ← normalize_usage incoming
  if incoming_usage.isEmpty then .ok current_usage
  else if current_usage.isEmpty then .ok incoming_usage
  else .ok (addUsage current_usage incoming_usage)

example : addUsage [("input_tokens", .num 1)] [("input_tokens", .num 2), ("cost", .bool true)] =
    [("input_tokens", .num 3), ("cost", .num 0), ("prompt_tokens", .num 2),
      ("completion_tokens", .num 0)] := by decide +kernel

mutual

def zeroes (current : Json) : Json → Bool
  | .obj incoming => zeroFields (fieldsOf current) incoming
  | .num value => current.obj?.isSome || decide (value = 0)
  | _ => true

def zeroFields (current : Fields) : Fields → Bool
  | [] => true
  | (key, value) :: rest =>
    zeroes (getFieldD current key (.num 0)) value && zeroFields current rest

end

@[simp] theorem keys_settleFields (fields : Fields) :
    Assoc.keys (settleFields fields) = Assoc.keys fields := by
  induction fields with
  | nil => rfl
  | cons field rest ih => simp [settleFields, ih]

@[simp] theorem keys_combineFields (current incoming : Fields) :
    Assoc.keys (combineFields current incoming) = Assoc.keys incoming := by
  induction incoming with
  | nil => rfl
  | cons field rest ih => simp [combineFields, ih]

@[simp] theorem lookup_settleFields (fields : Fields) (key : String) :
    (settleFields fields).lookup key = (fields.lookup key).map settle := by
  induction fields with
  | nil => rfl
  | cons field rest ih =>
    simp only [settleFields, Assoc.lookup_cons_self_or, ih]
    split <;> rfl

@[simp] theorem lookup_combineFields (current incoming : Fields) (key : String) :
    (combineFields current incoming).lookup key =
      (incoming.lookup key).map (combine (getFieldD current key (.num 0))) := by
  induction incoming with
  | nil => rfl
  | cons field rest ih =>
    simp only [combineFields, Assoc.lookup_cons_self_or, ih]
    split
    · rename_i same
      subst same
      rfl
    · rfl

theorem lookup_mergeNumericUsageMap (current incoming : Fields) (key : String) :
    (mergeNumericUsageMap current incoming).lookup key =
      ((incoming.lookup key).map (combine (getFieldD current key (.num 0)))).or
        ((current.lookup key).map settle) := by
  simp [mergeNumericUsageMap]

theorem keys_mergeNumericUsageMap (current incoming : Fields) :
    Assoc.keys (mergeNumericUsageMap current incoming) =
      Assoc.keys current ++
        (Assoc.keys incoming).filter (fun key => decide (key ∉ Assoc.keys current)) := by
  simp [mergeNumericUsageMap, Assoc.keys_merge]

theorem combine_obj (current : Json) (incoming : Fields) :
    combine current (.obj incoming) = .obj (mergeNumericUsageMap (fieldsOf current) incoming) := by
  rw [combine, mergeNumericUsageMap]

theorem combine_leaf (current : Json) {incoming : Json} (leaf : incoming.obj? = none) :
    combine current incoming =
      if current.obj?.isSome then .obj (settleFields (fieldsOf current))
      else addNumeric current incoming incoming := by
  cases incoming with
  | obj fields => cases leaf
  | _ => rw [combine]; nofun

theorem addNumeric_zero (value : Json) :
    addNumeric value (.num 0) value = .num ((numeric? value).getD 0) := by
  simp [addNumeric, numeric?, Rat.add_zero]

theorem settle_leaf {value : Json} (leaf : value.obj? = none) :
    settle value = .num ((numeric? value).getD 0) := by
  cases value with
  | obj fields => cases leaf
  | _ => rw [settle, addNumeric_zero]; nofun

theorem settle_settle (value : Json) : settle (settle value) = settle value := by
  induction value using Json.fieldInduction with
  | obj fields ih =>
    simp only [settle, Json.obj.injEq]
    induction fields with
    | nil => rfl
    | cons field rest step =>
      obtain ⟨key, value⟩ := field
      simp only [settleFields, List.cons.injEq, Prod.mk.injEq, true_and]
      exact ⟨ih (key, value) (by simp), step fun entry member => ih entry (by simp [member])⟩
  | other value leaf => rw [settle_leaf leaf, settle_leaf rfl]; rfl

theorem settleFields_settleFields (fields : Fields) :
    settleFields (settleFields fields) = settleFields fields := by
  simpa [settle] using settle_settle (.obj fields)

theorem zeroes_obj (current : Json) (incoming : Fields) :
    zeroes current (.obj incoming) = zeroFields (fieldsOf current) incoming := by
  rw [zeroes]

theorem zeroes_leaf (current : Json) {incoming : Json} (leaf : incoming.obj? = none) :
    zeroes current incoming = (current.obj?.isSome ||
      decide ((numeric? incoming).getD 0 = 0)) := by
  cases incoming with
  | obj fields => cases leaf
  | num value => rw [zeroes]; rfl
  | _ => simp [zeroes, numeric?]

theorem zeroFields_iff {current incoming : Fields} :
    zeroFields current incoming = true ↔
      ∀ entry ∈ incoming, zeroes (getFieldD current entry.1 (.num 0)) entry.2 = true := by
  induction incoming with
  | nil => simp [zeroFields]
  | cons entry rest ih =>
    obtain ⟨key, value⟩ := entry
    simp [zeroFields, ih]

theorem combine_combine_leaf {current incoming : Json} (leaf : incoming.obj? = none)
    (plain : current.obj? = none) :
    combine (combine current incoming) incoming =
      if (numeric? current).isSome || (numeric? incoming).isSome then
        .num ((numeric? current).getD 0 + (numeric? incoming).getD 0 + (numeric? incoming).getD 0)
      else incoming := by
  rw [combine_leaf current leaf, plain]
  simp only [Option.isSome_none, Bool.false_eq_true, ↓reduceIte, addNumeric]
  split
  · rw [combine_leaf _ leaf]
    simp [Json.obj?, addNumeric, numeric?]
  · rename_i neither
    rw [combine_leaf _ leaf, leaf]
    have silent : (numeric? incoming).isSome = false := by
      simp only [Bool.or_eq_true, not_or, Bool.not_eq_true] at neither
      exact neither.2
    simp [addNumeric, silent]

theorem lookup_of_unique {fields : Fields} (unique : (Json.obj fields).unique = true)
    {entry : String × Json} (member : entry ∈ fields) :
    fields.lookup entry.1 = some entry.2 ∧ entry.2.unique = true := by
  obtain ⟨distinct, inner⟩ := Json.unique_obj.mp unique
  have found := Assoc.lookup_of_mem distinct member
  exact ⟨found, Json.unique_of_lookup inner found⟩

theorem unique_getFieldD {fields : Fields} (unique : (Json.obj fields).unique = true) (key : String) :
    (getFieldD fields key (.num 0)).unique = true := by
  unfold getFieldD
  cases found : fields.lookup key with
  | none => rfl
  | some value => exact Json.unique_of_lookup (Json.unique_obj.mp unique).2 found

theorem unique_getField {fields : Fields} (unique : (Json.obj fields).unique = true) (key : String) :
    (getField fields key).unique = true := by
  unfold getField
  cases found : fields.lookup key with
  | none => rfl
  | some value => exact Json.unique_of_lookup (Json.unique_obj.mp unique).2 found

theorem unique_fieldsOf {value : Json} (unique : value.unique = true) :
    (Json.obj (fieldsOf value)).unique = true := by
  cases value with
  | obj fields => exact unique
  | _ => rfl

theorem nodup_mergeNumericUsageMap {current incoming : Fields}
    (currentKeys : (Assoc.keys current).Nodup) (incomingKeys : (Assoc.keys incoming).Nodup) :
    (Assoc.keys (mergeNumericUsageMap current incoming)).Nodup :=
  Assoc.nodup_keys_merge (by simpa using currentKeys) (by simpa using incomingKeys)

theorem keys_merge_again (current incoming : Fields) :
    Assoc.keys (mergeNumericUsageMap (mergeNumericUsageMap current incoming) incoming) =
      Assoc.keys (mergeNumericUsageMap current incoming) := by
  rw [keys_mergeNumericUsageMap]
  have nothing : (Assoc.keys incoming).filter
      (fun key => decide (key ∉ Assoc.keys (mergeNumericUsageMap current incoming))) = [] := by
    apply List.filter_eq_nil_iff.mpr
    intro key member
    simp [mergeNumericUsageMap, member]
  rw [nothing, List.append_nil]

theorem lookup_merge_again (current incoming : Fields) (key : String) :
    (mergeNumericUsageMap (mergeNumericUsageMap current incoming) incoming).lookup key =
      ((incoming.lookup key).map (fun value =>
        combine (combine (getFieldD current key (.num 0)) value) value)).or
          ((current.lookup key).map settle) := by
  rw [lookup_mergeNumericUsageMap, getFieldD, lookup_mergeNumericUsageMap]
  cases incoming.lookup key with
  | none => cases current.lookup key <;> simp [settle_settle]
  | some value => simp

theorem combine_again {incoming : Json} : ∀ {current : Json}, current.unique = true →
    incoming.unique = true → zeroes current incoming = true →
      combine (combine current incoming) incoming = combine current incoming := by
  induction incoming using Json.fieldInduction with
  | obj incoming ih =>
    intro current currentUnique unique zero
    have outer := unique_fieldsOf currentUnique
    have distinct := nodup_mergeNumericUsageMap (Json.unique_obj.mp outer).1
      (Json.unique_obj.mp unique).1
    rw [zeroes_obj, zeroFields_iff] at zero
    simp only [combine_obj, fieldsOf_obj, Json.obj.injEq]
    apply Assoc.ext_of_keys (by rwa [keys_merge_again]) (keys_merge_again _ _)
    intro key
    rw [lookup_merge_again, lookup_mergeNumericUsageMap]
    cases sent : incoming.lookup key with
    | none => rfl
    | some value =>
      have member := Assoc.mem_of_lookup sent
      have again := ih (key, value) member (unique_getFieldD outer key)
        (lookup_of_unique unique member).2 (zero (key, value) member)
      simp [again]
  | other value leaf =>
    intro current _ _ zero
    rw [zeroes_leaf current leaf] at zero
    cases plain : current.obj? with
    | some fields =>
      obtain rfl := Json.obj?_eq_some.mp plain
      rw [combine_leaf (.obj fields) leaf, combine_leaf _ leaf]
      simp [Json.obj?, settleFields_settleFields]
    | none =>
      have silent : (numeric? value).getD 0 = 0 := by simpa [plain] using zero
      rw [combine_combine_leaf leaf plain, combine_leaf current leaf, plain, silent]
      simp [addNumeric, silent, Rat.add_zero]

theorem zeroes_of_combine_again {incoming : Json} : ∀ {current : Json}, incoming.unique = true →
    Json.equal (combine (combine current incoming) incoming) (combine current incoming) = true →
      zeroes current incoming = true := by
  induction incoming using Json.fieldInduction with
  | obj incoming ih =>
    intro current unique same
    simp only [combine_obj, fieldsOf_obj] at same
    rw [zeroes_obj, zeroFields_iff]
    intro entry member
    obtain ⟨sent, inner⟩ := lookup_of_unique unique member
    have again : (mergeNumericUsageMap (mergeNumericUsageMap (fieldsOf current) incoming)
        incoming).lookup entry.1 = some (combine (combine (getFieldD (fieldsOf current) entry.1
          (.num 0)) entry.2) entry.2) := by
      simp [lookup_merge_again, sent]
    obtain ⟨before, stored, alike⟩ := Json.equal_lookup same again
    rw [lookup_mergeNumericUsageMap, sent] at stored
    rw [← Option.some.inj stored] at alike
    exact ih entry member inner alike
  | other value leaf =>
    intro current _ same
    rw [zeroes_leaf current leaf]
    cases plain : current.obj? with
    | some fields => rfl
    | none =>
      rw [combine_combine_leaf leaf plain, combine_leaf current leaf, plain] at same
      cases number : numeric? value with
      | none => simp
      | some amount =>
        simp only [number, Option.isSome_some, Bool.or_true, ↓reduceIte, Option.getD_some,
          Option.isSome_none, Bool.false_eq_true, addNumeric] at same
        have equal := Json.eq_of_equal_num same
        have zero : amount = 0 := by grind
        simp [zero]

end OpenWebui.Utils
