import OpenWebui.Utils.Usage

/-! Usages that report whole numbers of tokens, merged once and twice. -/

namespace OpenWebui.Utils

def tokenKeys : List String := "total_tokens" :: inputKeys ++ outputKeys

/-- Every token field that is set is a whole number of tokens. -/
def TokenCounts (usage : Fields) : Prop :=
  ∀ key ∈ tokenKeys, (getField usage key).truthy = false ∨
    ∃ count : Nat, getField usage key = .num count

def isCount : Json → Bool
  | .num value => decide (value.den = 1) && decide (0 ≤ value.num)
  | _ => false

theorem isCount_iff {value : Json} : isCount value = true ↔ ∃ count : Nat, value = .num count := by
  constructor
  · intro whole
    cases value with
    | num value =>
      simp only [isCount, Bool.and_eq_true, decide_eq_true_eq] at whole
      refine ⟨value.num.toNat, ?_⟩
      rw [Json.num.injEq, ← Rat.intCast_natCast, Int.toNat_of_nonneg whole.2]
      exact Rat.ext (by simp) (by simpa using whole.1)
    | _ => simp [isCount] at whole
  · rintro ⟨count, rfl⟩
    simp [isCount]

instance (usage : Fields) : Decidable (TokenCounts usage) :=
  decidable_of_iff (∀ key ∈ tokenKeys, (getField usage key).truthy = false ∨
      isCount (getField usage key) = true)
    (by simp only [isCount_iff, TokenCounts])

/-- A usage that normalising leaves as it is. -/
structure Normal (usage : Fields) (input output total : Nat) : Prop where
  input_tokens : usage.lookup "input_tokens" = some (.num input)
  output_tokens : usage.lookup "output_tokens" = some (.num output)
  total_tokens : usage.lookup "total_tokens" = some (.num total)
  inputAliases : input = 0 → ∀ key ∈ inputKeys, (getField usage key).truthy = false
  outputAliases : output = 0 → ∀ key ∈ outputKeys, (getField usage key).truthy = false
  totalZero : total = 0 → input = 0 ∧ output = 0

theorem pyInt_nat (count : Nat) : pyInt (.num (count : Rat)) = .ok (count : Int) := by
  have floor : ((count : Rat)).floor = (count : Int) := by
    rw [← Rat.intCast_natCast, Rat.floor_intCast]
  simp [pyInt, asNumber, truncate, floor, Rat.natCast_nonneg]

theorem truthy_nat {count : Nat} : (Json.num (count : Rat)).truthy = decide (count ≠ 0) := by
  simp

theorem firstCount_nat {usage : Fields} (keys : List String)
    (counts : ∀ key ∈ keys, (getField usage key).truthy = false ∨
      ∃ count : Nat, getField usage key = .num count) :
    ∃ count : Nat, firstCount usage keys = .num count ∧
      (count = 0 → ∀ key ∈ keys, (getField usage key).truthy = false) := by
  induction keys with
  | nil => exact ⟨0, rfl, fun _ => nofun⟩
  | cons key rest ih =>
    obtain ⟨later, found, zero⟩ := ih fun other member => counts other (by simp [member])
    cases filled : (getField usage key).truthy with
    | false =>
      refine ⟨later, by simp [firstCount, Json.orElse, filled, found], fun none other member => ?_⟩
      rcases List.mem_cons.mp member with rfl | after
      · exact filled
      · exact zero none other after
    | true =>
      obtain ⟨count, same⟩ := (counts key (by simp)).resolve_left (by simp [filled])
      refine ⟨count, by rw [firstCount, Json.orElse, filled, same]; rfl, fun none => ?_⟩
      rw [same, truthy_nat, none] at filled
      simp at filled

theorem total_nat {usage : Fields} (counts : TokenCounts usage) (input output : Nat) :
    ∃ total : Nat, totalTokens usage (.num input) (.num output) = .ok (.num total) ∧
      (total = 0 → input = 0 ∧ output = 0) := by
  unfold totalTokens
  split
  · rename_i filled
    obtain ⟨count, same⟩ := (counts "total_tokens" (by decide)).resolve_left (by simp [filled])
    refine ⟨count, by rw [same], fun zero => ?_⟩
    rw [same, truthy_nat, zero] at filled
    simp at filled
  · exact ⟨input + output, by simp [pyAdd, asNumber], fun zero => by omega⟩

theorem normalize_of_counts {usage : Fields} (counts : TokenCounts usage) (filled : usage ≠ []) :
    ∃ result input output total, normalize_usage usage = .ok result ∧
      Normal result input output total ∧
      ((Json.obj usage).unique = true → (Json.obj result).unique = true) := by
  obtain ⟨input, inputRead, inputZero⟩ := firstCount_nat inputKeys
    fun key member => counts key (by simp [tokenKeys, member])
  obtain ⟨output, outputRead, outputZero⟩ := firstCount_nat outputKeys
    fun key member => counts key (by simp [tokenKeys, member])
  obtain ⟨total, totalRead, totalZero⟩ := total_nat counts input output
  refine ⟨Assoc.set (Assoc.set (Assoc.set usage "input_tokens" (.num input))
    "output_tokens" (.num output)) "total_tokens" (.num total), input, output, total, ?_, ?_, ?_⟩
  · rw [normalize_usage, if_neg (by simpa using filled)]
    simp only [inputRead, outputRead, totalRead, bind, Except.bind, pyInt_nat, Rat.intCast_natCast]
  · refine ⟨by simp, by simp, by simp, ?_, ?_, totalZero⟩
    · intro zero key member
      have before := inputZero zero key member
      simp only [inputKeys, List.mem_cons, List.not_mem_nil, or_false] at member
      rcases member with rfl | rfl | rfl | rfl <;> simp [zero, before]
    · intro zero key member
      have before := outputZero zero key member
      simp only [outputKeys, List.mem_cons, List.not_mem_nil, or_false] at member
      rcases member with rfl | rfl | rfl | rfl <;> simp [zero, before]
  · intro unique
    exact Json.unique_set (Json.unique_set (Json.unique_set unique _ rfl) _ rfl) _ rfl

theorem firstCount_normal {usage : Fields} {key : String} {rest : List String} {count : Nat}
    (found : usage.lookup key = some (.num count))
    (aliases : count = 0 → ∀ other ∈ key :: rest, (getField usage other).truthy = false) :
    firstCount usage (key :: rest) = .num count := by
  have first := getField_of_lookup found
  rw [firstCount, first, Json.orElse, truthy_nat]
  by_cases zero : count = 0
  · have nothing : firstCount usage rest = .num 0 := by
      have falsy := fun other member => aliases zero other (List.mem_cons_of_mem key member)
      clear aliases
      induction rest with
      | nil => rfl
      | cons other later ih =>
        rw [firstCount, Json.orElse, falsy other (by simp)]
        exact ih fun query member => falsy query (by simp [member])
    simp [zero, nothing]
  · simp [zero]

theorem Normal.ne_nil {usage : Fields} {input output total : Nat}
    (normal : Normal usage input output total) : usage ≠ [] := by
  rintro rfl
  exact absurd normal.input_tokens (by simp)

theorem Normal.normalize {usage : Fields} {input output total : Nat}
    (normal : Normal usage input output total) : normalize_usage usage = .ok usage := by
  have inputRead : firstCount usage inputKeys = .num input :=
    firstCount_normal normal.input_tokens normal.inputAliases
  have outputRead : firstCount usage outputKeys = .num output :=
    firstCount_normal normal.output_tokens normal.outputAliases
  have totalRead : totalTokens usage (.num input) (.num output) = .ok (.num total) := by
    rw [totalTokens, getField_of_lookup normal.total_tokens, truthy_nat]
    by_cases zero : total = 0
    · obtain ⟨noInput, noOutput⟩ := normal.totalZero zero
      simp [zero, noInput, noOutput, pyAdd, asNumber, Rat.add_zero]
    · simp [zero]
  rw [normalize_usage, if_neg (by simpa using normal.ne_nil)]
  simp only [inputRead, outputRead, totalRead, bind, Except.bind, pyInt_nat, Rat.intCast_natCast]
  rw [Assoc.set_of_lookup normal.input_tokens, Assoc.set_of_lookup normal.output_tokens,
    Assoc.set_of_lookup normal.total_tokens]

section Add

variable {current incoming : Fields}

theorem lookup_addUsage (current incoming : Fields) {key : String} (first : key ≠ "prompt_tokens")
    (second : key ≠ "completion_tokens") :
    (addUsage current incoming).lookup key =
      ((incoming.lookup key).or (current.lookup key)).map (mergedValue current incoming key) := by
  simp [addUsage, Ne.symm first, Ne.symm second, Assoc.lookup_map_value]

theorem lookup_addUsage_prompt (current incoming : Fields) :
    (addUsage current incoming).lookup "prompt_tokens" =
      some (((getField incoming "prompt_tokens").orElse (getField incoming "input_tokens")).orElse
        (getFieldD current "prompt_tokens" (.num 0))) := by
  simp [addUsage]

theorem lookup_addUsage_completion (current incoming : Fields) :
    (addUsage current incoming).lookup "completion_tokens" =
      some (((getField incoming "completion_tokens").orElse
        (getField incoming "output_tokens")).orElse
          (getFieldD current "completion_tokens" (.num 0))) := by
  simp [addUsage]

theorem lookup_addUsage_sum {key : String} (summable : key ∈ summableKeys) {first second : Rat}
    (stored : current.lookup key = some (.num first))
    (sent : incoming.lookup key = some (.num second)) :
    (addUsage current incoming).lookup key = some (.num (first + second)) := by
  have plain : key ≠ "prompt_tokens" ∧ key ≠ "completion_tokens" := by
    constructor <;> rintro rfl <;> exact absurd summable (by decide)
  rw [lookup_addUsage current incoming plain.1 plain.2, sent, stored]
  simp [mergedValue, summable, addNumeric, getFieldD, sent, stored, numeric?]

theorem getField_addUsage_latest {key : String} (plain : key ∉ summableKeys)
    (noDetail : key ∉ detailKeys) (first : key ≠ "prompt_tokens")
    (second : key ≠ "completion_tokens") :
    getField (addUsage current incoming) key =
      ((incoming.lookup key).or (current.lookup key)).getD .null := by
  rw [getField, lookup_addUsage current incoming first second]
  cases (incoming.lookup key).or (current.lookup key) with
  | none => rfl
  | some value => simp [mergedValue, plain, noDetail]

theorem falsy_latest {key : String} (stored : (getField current key).truthy = false)
    (sent : (getField incoming key).truthy = false) :
    (((incoming.lookup key).or (current.lookup key)).getD .null).truthy = false := by
  cases found : incoming.lookup key with
  | none => simpa [getField] using stored
  | some value => simpa [getField, found] using sent

theorem falsy_getFieldD {key : String} (stored : (getField current key).truthy = false) :
    (getFieldD current key (.num 0)).truthy = false := by
  cases found : current.lookup key with
  | none => simp [getFieldD, found]
  | some value => simpa [getField, getFieldD, found] using stored

theorem Normal.add {input output total moreInput moreOutput moreTotal : Nat}
    (stored : Normal current input output total)
    (sent : Normal incoming moreInput moreOutput moreTotal) :
    Normal (addUsage current incoming) (input + moreInput) (output + moreOutput)
      (total + moreTotal) := by
  refine ⟨?_, ?_, ?_, fun zero key member => ?_, fun zero key member => ?_, fun zero => ?_⟩
  · rw [lookup_addUsage_sum (by decide) stored.input_tokens sent.input_tokens, Rat.natCast_add]
  · rw [lookup_addUsage_sum (by decide) stored.output_tokens sent.output_tokens, Rat.natCast_add]
  · rw [lookup_addUsage_sum (by decide) stored.total_tokens sent.total_tokens, Rat.natCast_add]
  · obtain ⟨noInput, noMore⟩ : input = 0 ∧ moreInput = 0 := by omega
    have before := stored.inputAliases noInput
    have after := sent.inputAliases noMore
    have kept (other : String) (present : other ∈ inputKeys) := falsy_latest
      (before other present) (after other present)
    simp only [inputKeys, List.mem_cons, List.not_mem_nil, or_false] at member
    rcases member with rfl | rfl | rfl | rfl
    · rw [getField_of_lookup
        (lookup_addUsage_sum (by decide) stored.input_tokens sent.input_tokens)]
      simp [noInput, noMore, Rat.add_zero]
    · rw [getField_of_lookup (lookup_addUsage_prompt current incoming)]
      simp [Json.orElse, after "prompt_tokens" (by decide), after "input_tokens" (by decide),
        falsy_getFieldD (before "prompt_tokens" (by decide))]
    · rw [getField_addUsage_latest (by decide) (by decide) (by decide) (by decide)]
      exact kept "prompt_eval_count" (by decide)
    · rw [getField_addUsage_latest (by decide) (by decide) (by decide) (by decide)]
      exact kept "prompt_n" (by decide)
  · obtain ⟨noOutput, noMore⟩ : output = 0 ∧ moreOutput = 0 := by omega
    have before := stored.outputAliases noOutput
    have after := sent.outputAliases noMore
    have kept (other : String) (present : other ∈ outputKeys) := falsy_latest
      (before other present) (after other present)
    simp only [outputKeys, List.mem_cons, List.not_mem_nil, or_false] at member
    rcases member with rfl | rfl | rfl | rfl
    · rw [getField_of_lookup
        (lookup_addUsage_sum (by decide) stored.output_tokens sent.output_tokens)]
      simp [noOutput, noMore, Rat.add_zero]
    · rw [getField_of_lookup (lookup_addUsage_completion current incoming)]
      simp [Json.orElse, after "completion_tokens" (by decide), after "output_tokens" (by decide),
        falsy_getFieldD (before "completion_tokens" (by decide))]
    · rw [getField_addUsage_latest (by decide) (by decide) (by decide) (by decide)]
      exact kept "eval_count" (by decide)
    · rw [getField_addUsage_latest (by decide) (by decide) (by decide) (by decide)]
      exact kept "predicted_n" (by decide)
  · have first := stored.totalZero (by omega)
    have second := sent.totalZero (by omega)
    omega

/-- The incoming usage counts nothing on top of the current one: every count,
cost and detail that is summed is zero. -/
structure AddsNothing (current incoming : Fields) : Prop where
  sums : ∀ key ∈ summableKeys, ∀ value, incoming.lookup key = some (.num value) → value = 0
  details : ∀ key ∈ detailKeys,
    zeroFields (fieldsOf (getField current key)) (fieldsOf (getField incoming key)) = true

theorem keys_addUsage (current incoming : Fields) :
    Assoc.keys (addUsage current incoming) =
      Assoc.keys (Assoc.set (Assoc.set (Assoc.merge current incoming) "prompt_tokens" .null)
        "completion_tokens" .null) := by
  have mapped : Assoc.keys ((Assoc.merge current incoming).map (fun entry =>
      (entry.1, mergedValue current incoming entry.1 entry.2))) =
        Assoc.keys (Assoc.merge current incoming) := by
    simp [Assoc.keys, Function.comp_def]
  rw [addUsage, Assoc.keys_set, Assoc.keys_set, mapped, Assoc.keys_set, Assoc.keys_set]

theorem mem_keys_addUsage {key : String} :
    key ∈ Assoc.keys (addUsage current incoming) ↔
      key = "completion_tokens" ∨ key = "prompt_tokens" ∨ key ∈ Assoc.keys current ∨
        key ∈ Assoc.keys incoming := by
  rw [keys_addUsage]
  simp

theorem keys_addUsage_again (current incoming : Fields) :
    Assoc.keys (addUsage (addUsage current incoming) incoming) =
      Assoc.keys (addUsage current incoming) := by
  have nothing : (Assoc.keys incoming).filter
      (fun key => decide (key ∉ Assoc.keys (addUsage current incoming))) = [] := by
    apply List.filter_eq_nil_iff.mpr
    intro key member
    simp [mem_keys_addUsage, member]
  have merged : Assoc.keys (Assoc.merge (addUsage current incoming) incoming) =
      Assoc.keys (addUsage current incoming) := by
    rw [Assoc.keys_merge, nothing, List.append_nil]
  rw [keys_addUsage (addUsage current incoming), Assoc.keys_set, Assoc.keys_set, merged,
    if_pos (mem_keys_addUsage.mpr (.inr (.inl rfl))), if_pos (mem_keys_addUsage.mpr (.inl rfl))]

theorem nodup_addUsage (currentKeys : (Assoc.keys current).Nodup)
    (incomingKeys : (Assoc.keys incoming).Nodup) :
    (Assoc.keys (addUsage current incoming)).Nodup := by
  rw [keys_addUsage]
  exact Assoc.nodup_keys_set (Assoc.nodup_keys_set
    (Assoc.nodup_keys_merge currentKeys incomingKeys) _ _) _ _

theorem orElse_again (first second : Json) :
    first.orElse (first.orElse second) = first.orElse second := by
  unfold Json.orElse
  split <;> simp [*]

theorem addNumeric_again {stored sent latest : Json} (zero : (numeric? sent).getD 0 = 0)
    (plain : numeric? sent = none → latest = sent) :
    ∀ later, (numeric? sent = none → later = latest) →
      addNumeric (addNumeric stored sent latest) sent later = addNumeric stored sent latest := by
  intro later same
  cases number : numeric? sent with
  | some value =>
    have none : value = 0 := by simpa [number] using zero
    simp [addNumeric, number, none, Rat.add_zero]
  | none =>
    cases before : numeric? stored with
    | some value => simp [addNumeric, number, before, Rat.add_zero]
    | none =>
      have text : numeric? latest = none := by rw [plain number, number]
      simp [addNumeric, number, before, text, same number]

theorem mergedValue_again (zero : AddsNothing current incoming)
    (currentUnique : (Json.obj current).unique = true)
    (incomingUnique : (Json.obj incoming).unique = true) {key : String} {latest : Json}
    (read : (incoming.lookup key).or (current.lookup key) = some latest)
    (merged : (addUsage current incoming).lookup key =
      some (mergedValue current incoming key latest)) :
    mergedValue (addUsage current incoming) incoming key
        ((incoming.lookup key).getD (mergedValue current incoming key latest)) =
      mergedValue current incoming key latest := by
  have stored : getField (addUsage current incoming) key =
      mergedValue current incoming key latest := getField_of_lookup merged
  have storedD : getFieldD (addUsage current incoming) key (.num 0) =
      mergedValue current incoming key latest := by
    rw [getFieldD, merged, Option.getD_some]
  by_cases summable : key ∈ summableKeys
  · have silent : (numeric? (getFieldD incoming key (.num 0))).getD 0 = 0 := by
      cases sent : incoming.lookup key with
      | none => simp [getFieldD, sent]
      | some value =>
        cases value with
        | num amount => simpa [getFieldD, sent] using zero.sums key summable amount sent
        | _ => simp [getFieldD, sent, numeric?]
    have present : numeric? (getFieldD incoming key (.num 0)) = none →
        incoming.lookup key = some (getFieldD incoming key (.num 0)) := by
      intro text
      cases sent : incoming.lookup key with
      | none => simp [getFieldD, sent] at text
      | some value => simp [getFieldD, sent]
    have same : numeric? (getFieldD incoming key (.num 0)) = none →
        latest = getFieldD incoming key (.num 0) := by
      intro text
      rw [present text, Option.some_or] at read
      exact (Option.some.inj read).symm
    have unfolded : mergedValue current incoming key latest =
        addNumeric (getFieldD current key (.num 0)) (getFieldD incoming key (.num 0)) latest := by
      rw [mergedValue, if_pos summable]
    rw [mergedValue, if_pos summable, storedD, unfolded]
    apply addNumeric_again silent same
    intro text
    rw [present text, Option.getD_some, same text]
  · by_cases detail : key ∈ detailKeys ∧
        ((getField current key).obj?.isSome ∨ (getField incoming key).obj?.isSome)
    · have unfolded : mergedValue current incoming key latest =
          .obj (mergeNumericUsageMap (fieldsOf (getField current key))
            (fieldsOf (getField incoming key))) := by
        rw [mergedValue, if_neg summable, if_pos detail]
      have detailZero : zeroes (getField current key) (.obj (fieldsOf (getField incoming key))) =
          true := by
        rw [zeroes_obj]
        exact zero.details key detail.1
      have again := combine_again (unique_getField currentUnique key)
        (unique_fieldsOf (unique_getField incomingUnique key)) detailZero
      simp only [combine_obj, fieldsOf_obj] at again
      rw [mergedValue, if_neg summable, if_pos ⟨detail.1, .inl (by rw [stored, unfolded]; rfl)⟩,
        stored, unfolded, fieldsOf_obj, again]
    · have unfolded : mergedValue current incoming key latest = latest := by
        rw [mergedValue, if_neg summable, if_neg detail]
      have same : (incoming.lookup key).getD latest = latest := by
        cases sent : incoming.lookup key with
        | none => rfl
        | some value => simpa [sent] using read
      have leaf : ¬ (key ∈ detailKeys ∧
          (latest.obj?.isSome ∨ (getField incoming key).obj?.isSome)) := by
        rintro ⟨member, found⟩
        apply detail
        refine ⟨member, ?_⟩
        rcases found with object | object
        · cases sent : incoming.lookup key with
          | none => exact .inl (by rw [sent, Option.none_or] at read; rwa [getField_of_lookup read])
          | some value =>
            rw [sent, Option.some_or] at read
            exact .inr (by rwa [getField_of_lookup sent, Option.some.inj read])
        · exact .inr object
      rw [unfolded, same, mergedValue, if_neg summable, stored, unfolded, if_neg leaf]

theorem addUsage_again (zero : AddsNothing current incoming)
    (currentUnique : (Json.obj current).unique = true)
    (incomingUnique : (Json.obj incoming).unique = true) :
    addUsage (addUsage current incoming) incoming = addUsage current incoming := by
  have distinct := nodup_addUsage (Json.unique_obj.mp currentUnique).1
    (Json.unique_obj.mp incomingUnique).1
  apply Assoc.ext_of_keys (by rwa [keys_addUsage_again]) (keys_addUsage_again _ _)
  intro key
  by_cases prompt : key = "prompt_tokens"
  · rw [prompt, lookup_addUsage_prompt, lookup_addUsage_prompt, getFieldD, lookup_addUsage_prompt,
      Option.getD_some, orElse_again]
  · by_cases completion : key = "completion_tokens"
    · rw [completion, lookup_addUsage_completion, lookup_addUsage_completion, getFieldD,
        lookup_addUsage_completion, Option.getD_some, orElse_again]
    · have merged := lookup_addUsage current incoming prompt completion
      rw [lookup_addUsage _ _ prompt completion, merged]
      cases read : (incoming.lookup key).or (current.lookup key) with
      | none =>
        have absent := (Option.or_eq_none_iff.mp read).1
        simp [absent]
      | some latest =>
        rw [read, Option.map_some] at merged
        have again := mergedValue_again zero currentUnique incomingUnique read merged
        cases sent : incoming.lookup key with
        | none => simpa [sent] using again
        | some value => simpa [sent] using again

theorem addsNothing_of_again (incomingUnique : (Json.obj incoming).unique = true)
    (same : Json.equal (.obj (addUsage (addUsage current incoming) incoming))
      (.obj (addUsage current incoming)) = true) : AddsNothing current incoming := by
  constructor
  · intro key summable value sent
    have plain : key ≠ "prompt_tokens" ∧ key ≠ "completion_tokens" := by
      constructor <;> rintro rfl <;> exact absurd summable (by decide)
    have once : (addUsage current incoming).lookup key =
        some (.num ((numeric? (getFieldD current key (.num 0))).getD 0 + value)) := by
      rw [lookup_addUsage current incoming plain.1 plain.2, sent]
      simp [mergedValue, summable, addNumeric, getFieldD, sent]
    have twice := lookup_addUsage_sum summable once sent
    obtain ⟨before, stored, alike⟩ := Json.equal_lookup same twice
    rw [once] at stored
    rw [← Option.some.inj stored] at alike
    have counts := Json.eq_of_equal_num alike
    grind
  · intro key detail
    have plain : key ∉ summableKeys ∧ key ≠ "prompt_tokens" ∧ key ≠ "completion_tokens" := by
      refine ⟨fun summable => ?_, ?_, ?_⟩
      · revert key
        decide
      · rintro rfl
        exact absurd detail (by decide)
      · rintro rfl
        exact absurd detail (by decide)
    cases object : (getField incoming key).obj? with
    | none =>
      have empty : fieldsOf (getField incoming key) = [] := by simp [fieldsOf, object]
      rw [empty]
      rfl
    | some fields =>
      have field := Json.obj?_eq_some.mp object
      have sent : incoming.lookup key = some (.obj fields) := by
        cases found : incoming.lookup key with
        | none => simp [getField, found] at field
        | some value => rw [← field, getField_of_lookup found]
      have once : (addUsage current incoming).lookup key =
          some (combine (getField current key) (.obj fields)) := by
        rw [lookup_addUsage current incoming plain.2.1 plain.2.2, sent, Option.some_or,
          Option.map_some, mergedValue, if_neg plain.1, if_pos ⟨detail, .inr (by simp [object])⟩,
          combine_obj, field, fieldsOf_obj]
      have twice : (addUsage (addUsage current incoming) incoming).lookup key =
          some (combine (combine (getField current key) (.obj fields)) (.obj fields)) := by
        rw [lookup_addUsage _ _ plain.2.1 plain.2.2, sent, Option.some_or, Option.map_some,
          mergedValue, if_neg plain.1, if_pos ⟨detail, .inr (by simp [object])⟩,
          getField_of_lookup once, field, fieldsOf_obj, combine_obj (combine _ _)]
      obtain ⟨before, stored, alike⟩ := Json.equal_lookup same twice
      rw [once] at stored
      rw [← Option.some.inj stored] at alike
      have inner := Json.unique_of_lookup (Json.unique_obj.mp incomingUnique).2 sent
      have zero := zeroes_of_combine_again inner alike
      rw [zeroes_obj] at zero
      rw [field, fieldsOf_obj, zero]

end Add

/-- No usage, or one that normalising leaves as it is. -/
def Settled (usage : Fields) : Prop :=
  usage = [] ∨ ∃ input output total, Normal usage input output total

theorem Settled.normalize {usage : Fields} (settled : Settled usage) :
    normalize_usage usage = .ok usage := by
  rcases settled with rfl | ⟨_, _, _, normal⟩
  · rfl
  · exact normal.normalize

def accumulate (stored sent : Fields) : Fields :=
  if Json.equal (.obj sent) (.obj stored) then stored
  else if stored.isEmpty then sent
  else addUsage stored sent

theorem Settled.accumulate {stored sent : Fields} (before : Settled stored) (after : Settled sent)
    (filled : sent ≠ []) : Settled (accumulate stored sent) := by
  unfold Utils.accumulate
  split
  · exact before
  · split
    · exact after
    · rename_i nonempty
      obtain ⟨_, _, _, first⟩ := before.resolve_left (by simpa using nonempty)
      obtain ⟨_, _, _, second⟩ := after.resolve_left filled
      exact .inr ⟨_, _, _, first.add second⟩

theorem merge_usage_eq {stored sent : Fields} (before : Settled stored) (after : Settled sent)
    (filled : sent ≠ []) :
    merge_usage stored sent = .ok (if stored.isEmpty then sent else addUsage stored sent) := by
  have present : sent.isEmpty = false := by simpa using filled
  simp only [merge_usage, before.normalize, after.normalize, bind, Except.bind, present,
    Bool.false_eq_true, if_false]
  split <;> rfl

/-- A usage sent again is not counted again: none was stored, the same one was, it
counts nothing, or the stored one counts nothing. -/
def SentOnce (stored sent : Fields) : Prop :=
  stored = [] ∨ Json.equal (.obj sent) (.obj stored) = true ∨ AddsNothing stored sent ∨
    Json.equal (.obj sent) (.obj (addUsage stored sent)) = true

theorem accumulate_again_iff {stored sent : Fields} (storedUnique : (Json.obj stored).unique = true)
    (sentUnique : (Json.obj sent).unique = true) :
    Json.equal (.obj (accumulate (accumulate stored sent) sent)) (.obj (accumulate stored sent)) =
      true ↔ SentOnce stored sent := by
  by_cases same : Json.equal (.obj sent) (.obj stored) = true
  · have once : accumulate stored sent = stored := by rw [accumulate, if_pos same]
    simp [once, SentOnce, same]
  · by_cases empty : stored = []
    · have once : accumulate stored sent = sent := by
        rw [accumulate, if_neg same, if_pos (by simpa using empty)]
      have twice : accumulate sent sent = sent := by simp [accumulate]
      rw [once, twice, Json.equal_refl]
      exact iff_of_true rfl (.inl empty)
    · have once : accumulate stored sent = addUsage stored sent := by
        simp [accumulate, same, empty]
      by_cases covered : Json.equal (.obj sent) (.obj (addUsage stored sent)) = true
      · have twice : accumulate (addUsage stored sent) sent = addUsage stored sent := by
          rw [accumulate, if_pos covered]
        simp [once, twice, SentOnce, covered]
      · have filled : (addUsage stored sent).isEmpty = false := by
          cases merged : addUsage stored sent with
          | nil =>
            have present := lookup_addUsage_prompt stored sent
            simp [merged] at present
          | cons field rest => rfl
        have twice : accumulate (addUsage stored sent) sent =
            addUsage (addUsage stored sent) sent := by
          simp [accumulate, covered, filled]
        rw [once, twice]
        simp only [SentOnce, empty, same, covered, Bool.false_eq_true, false_or, or_false]
        constructor
        · exact addsNothing_of_again sentUnique
        · intro zero
          rw [addUsage_again zero storedUnique sentUnique, Json.equal_refl]

end OpenWebui.Utils
