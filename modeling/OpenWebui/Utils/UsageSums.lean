import Mathlib.Algebra.Ring.Rat
import OpenWebui.Utils.MergeUsage

/-! The usage of several calls added up in any order of merges: the counts are the sums of the
normalised counts, and the details are added up key by key. -/

namespace OpenWebui.Utils

inductive Merges where
  | usage (payload : Fields)
  | merge (current incoming : Merges)

namespace Merges

def payloads : Merges → List Fields
  | .usage payload => [payload]
  | .merge current incoming => current.payloads ++ incoming.payloads

def result : Merges → Except PyError Fields
  | .usage payload => .ok payload
  | .merge current incoming => do merge_usage (← current.result) (← incoming.result)

end Merges

def tokens (usage : Fields) (key : String) : Rat :=
  match normalize_usage usage with
  | .ok normal => (numeric? (getFieldD normal key (.num 0))).getD 0
  | .error _ => 0

def mapAt (value : Json) : List String → Bool
  | [] => value.obj?.isSome
  | key :: path => mapAt (getFieldD (fieldsOf value) key (.num 0)) path

def numberAt (value : Json) : List String → Rat
  | [] => (numeric? value).getD 0
  | key :: path => numberAt (getFieldD (fieldsOf value) key (.num 0)) path

section Details

theorem at_leaf {value : Json} (leaf : value.obj? = none) (path : List String) :
    mapAt value path = false ∧ (path ≠ [] → numberAt value path = 0) := by
  have number : ∀ path : List String, mapAt (.num 0) path = false ∧ numberAt (.num 0) path = 0 := by
    intro path
    induction path with
    | nil => exact ⟨rfl, rfl⟩
    | cons key path ih => exact ih
  cases path with
  | nil => exact ⟨by simp [mapAt, leaf], fun filled => absurd rfl filled⟩
  | cons key path =>
    have fields : fieldsOf value = [] := by simp [fieldsOf, leaf]
    rw [mapAt, numberAt, fields]
    exact ⟨(number path).1, fun _ => (number path).2⟩

theorem at_settle (value : Json) (path : List String) :
    mapAt (settle value) path = mapAt value path ∧ numberAt (settle value) path = numberAt value path := by
  induction path generalizing value with
  | nil =>
    cases object : value.obj? with
    | none =>
      rw [settle_leaf object]
      exact ⟨by rw [mapAt, mapAt, object]; rfl, rfl⟩
    | some fields =>
      obtain rfl := Json.obj?_eq_some.mp object
      exact ⟨rfl, rfl⟩
  | cons key path ih =>
    cases object : value.obj? with
    | none =>
      have settled := at_leaf (show (settle value).obj? = none by rw [settle_leaf object]; rfl) (key :: path)
      have before := at_leaf object (key :: path)
      rw [settled.1, before.1, settled.2 (by simp), before.2 (by simp)]
      exact ⟨rfl, rfl⟩
    | some fields =>
      obtain rfl := Json.obj?_eq_some.mp object
      simp only [mapAt, numberAt, settle, fieldsOf_obj, getFieldD, lookup_settleFields]
      cases fields.lookup key with
      | none => exact ⟨rfl, rfl⟩
      | some inner => exact ih inner

theorem at_combine_leaf (current : Json) {incoming : Json} (sent : incoming.obj? = none)
    (path : List String) :
    mapAt (combine current incoming) path = (mapAt current path || mapAt incoming path) ∧
      (mapAt (combine current incoming) path = false →
        numberAt (combine current incoming) path = numberAt current path + numberAt incoming path) := by
  rw [combine_leaf current sent]
  cases path with
  | nil =>
    cases stored : current.obj? with
    | some fields =>
      obtain rfl := Json.obj?_eq_some.mp stored
      exact ⟨rfl, fun plain => by cases plain⟩
    | none =>
      simp only [Option.isSome_none, Bool.false_eq_true, if_false, mapAt, numberAt, stored, sent,
        Bool.or_false, addNumeric]
      split
      · simp [Json.obj?]
      · rename_i neither
        simp only [Bool.or_eq_true, not_or, Bool.not_eq_true, Option.isSome_eq_false_iff,
          Option.isNone_iff_eq_none] at neither
        simp [sent, neither.1, neither.2]
  | cons key path =>
    obtain ⟨no_map, no_number⟩ := at_leaf sent (key :: path)
    rw [no_map, no_number (by simp), Bool.or_false, Rat.add_zero]
    cases stored : current.obj? with
    | some fields =>
      obtain rfl := Json.obj?_eq_some.mp stored
      have settled := at_settle (.obj fields) (key :: path)
      rw [settle] at settled
      exact ⟨settled.1, fun _ => settled.2⟩
    | none =>
      have leaf : (addNumeric current incoming incoming).obj? = none := by
        unfold addNumeric
        split
        · rfl
        · exact sent
      obtain ⟨sum_map, sum_number⟩ := at_leaf leaf (key :: path)
      obtain ⟨stored_map, stored_number⟩ := at_leaf stored (key :: path)
      simp [sum_map, sum_number, stored_map, stored_number]

theorem at_combine (current incoming : Json) (path : List String) :
    mapAt (combine current incoming) path = (mapAt current path || mapAt incoming path) ∧
      (mapAt (combine current incoming) path = false →
        numberAt (combine current incoming) path = numberAt current path + numberAt incoming path) := by
  induction path generalizing current incoming with
  | nil =>
    cases sent : incoming.obj? with
    | none => exact at_combine_leaf current sent []
    | some fields =>
      obtain rfl := Json.obj?_eq_some.mp sent
      simp [combine_obj, mapAt, Json.obj?]
  | cons key path ih =>
    cases sent : incoming.obj? with
    | none => exact at_combine_leaf current sent (key :: path)
    | some fields =>
      obtain rfl := Json.obj?_eq_some.mp sent
      rw [combine_obj]
      simp only [mapAt, numberAt, fieldsOf_obj, getFieldD, lookup_mergeNumericUsageMap]
      cases given : fields.lookup key with
      | some value =>
        simpa only [Option.map_some, Option.some_or, Option.getD_some, getFieldD] using
          ih (getFieldD (fieldsOf current) key (.num 0)) value
      | none =>
        obtain ⟨no_map, no_number⟩ := at_leaf (show (Json.num 0).obj? = none from rfl) path
        have nothing : numberAt (.num 0) path = 0 := by
          cases path with
          | nil => rfl
          | cons => exact no_number (by simp)
        simp only [Option.map_none, Option.none_or, Option.getD_none, no_map, nothing, Bool.or_false,
          Rat.add_zero]
        cases stored : (fieldsOf current).lookup key with
        | none =>
          simp only [Option.map_none, Option.getD_none, no_map, nothing]
          exact ⟨trivial, fun _ => trivial⟩
        | some value => exact ⟨(at_settle value path).1, fun _ => (at_settle value path).2⟩

end Details

def countKeys : List String := ["input_tokens", "output_tokens", "total_tokens"]

/-- The counts and the details are those of the payloads, added up. -/
structure AddsUp (payloads : List Fields) (usage : Fields) : Prop where
  counts : ∀ key ∈ countKeys,
    getFieldD usage key (.num 0) = .num ((payloads.map fun payload => tokens payload key).sum)
  maps : ∀ key ∈ detailKeys, ∀ path, mapAt (getField usage key) path =
    payloads.any fun payload => mapAt (getField payload key) path
  details : ∀ key ∈ detailKeys, ∀ path, path ≠ [] → mapAt (getField usage key) path = false →
    numberAt (getField usage key) path =
      (payloads.map fun payload => numberAt (getField payload key) path).sum

theorem Settled.counts {usage : Fields} (settled : Settled usage) : usage = [] ∨
    ∀ key ∈ countKeys, ∃ count : Rat, usage.lookup key = some (.num count) := by
  refine settled.imp_right fun ⟨input, output, total, normal⟩ key member => ?_
  simp only [countKeys, List.mem_cons, List.not_mem_nil, or_false] at member
  rcases member with rfl | rfl | rfl
  · exact ⟨_, normal.input_tokens⟩
  · exact ⟨_, normal.output_tokens⟩
  · exact ⟨_, normal.total_tokens⟩

theorem lookup_normalize {usage normal : Fields} (done : normalize_usage usage = .ok normal)
    {key : String} (other : key ∉ countKeys) : normal.lookup key = usage.lookup key := by
  simp only [countKeys, List.mem_cons, List.not_mem_nil, or_false, not_or] at other
  unfold normalize_usage at done
  split at done
  · rename_i empty
    rw [← Except.ok.inj done, List.isEmpty_iff.mp empty]
  · obtain ⟨total, -, rest⟩ := bind_eq_ok.mp done
    obtain ⟨input, -, rest⟩ := bind_eq_ok.mp rest
    obtain ⟨output, -, rest⟩ := bind_eq_ok.mp rest
    obtain ⟨whole, -, rest⟩ := bind_eq_ok.mp rest
    rw [← Except.ok.inj rest]
    simp [Ne.symm other.1, Ne.symm other.2.1, Ne.symm other.2.2]

theorem addsUp_normalize {payload normal : Fields} (done : normalize_usage payload = .ok normal)
    (settled : Settled normal) : AddsUp [payload] normal := by
  have detail : ∀ key ∈ detailKeys, getField normal key = getField payload key := by
    intro key member
    rw [getField, getField, lookup_normalize done]
    intro count
    simp only [countKeys, List.mem_cons, List.not_mem_nil, or_false] at count
    rcases count with rfl | rfl | rfl <;> exact absurd member (by decide)
  refine ⟨fun key member => ?_, fun key member path => ?_, fun key member path _ _ => ?_⟩
  · simp only [List.map_cons, List.map_nil, List.sum_cons, List.sum_nil, Rat.add_zero, tokens, done]
    rcases settled.counts with rfl | counts
    · rfl
    · obtain ⟨count, found⟩ := counts key member
      simp [getFieldD, found]
  · rw [detail key member]
    simp
  · rw [detail key member]
    simp

theorem AddsUp.append {first second : List Fields} {current incoming : Fields}
    (stored : AddsUp first current) (sent : AddsUp second incoming) {usage : Fields}
    (counts : ∀ key ∈ countKeys, ∃ a b : Rat, getFieldD current key (.num 0) = .num a ∧
      getFieldD incoming key (.num 0) = .num b ∧ getFieldD usage key (.num 0) = .num (a + b))
    (details : ∀ key ∈ detailKeys, ∀ path,
      mapAt (getField usage key) path =
        (mapAt (getField current key) path || mapAt (getField incoming key) path) ∧
      (path ≠ [] → mapAt (getField usage key) path = false → numberAt (getField usage key) path =
        numberAt (getField current key) path + numberAt (getField incoming key) path)) :
    AddsUp (first ++ second) usage := by
  refine ⟨fun key member => ?_, fun key member path => ?_, fun key member path filled plain => ?_⟩
  · obtain ⟨a, b, before, after, sum⟩ := counts key member
    rw [stored.counts key member] at before
    rw [sent.counts key member] at after
    rw [sum, ← Json.num.inj before, ← Json.num.inj after, List.map_append, List.sum_append]
  · rw [(details key member path).1, stored.maps key member, sent.maps key member, List.any_append]
  · obtain ⟨maps, numbers⟩ := details key member path
    obtain ⟨no_stored, no_sent⟩ := Bool.or_eq_false_iff.mp (maps ▸ plain)
    rw [numbers filled plain, stored.details key member path filled no_stored,
      sent.details key member path filled no_sent, List.map_append, List.sum_append]

theorem addUsage_details (current incoming : Fields) {key : String} (member : key ∈ detailKeys)
    (path : List String) :
    mapAt (getField (addUsage current incoming) key) path =
        (mapAt (getField current key) path || mapAt (getField incoming key) path) ∧
      (path ≠ [] → mapAt (getField (addUsage current incoming) key) path = false →
        numberAt (getField (addUsage current incoming) key) path =
          numberAt (getField current key) path + numberAt (getField incoming key) path) := by
  have others : key ≠ "prompt_tokens" ∧ key ≠ "completion_tokens" ∧ key ∉ summableKeys := by
    simp only [detailKeys, List.mem_cons, List.not_mem_nil, or_false] at member
    rcases member with rfl | rfl | rfl | rfl <;> decide
  have found := lookup_addUsage current incoming others.1 others.2.1
  by_cases object : (getField current key).obj?.isSome ∨ (getField incoming key).obj?.isSome
  · have present : ((incoming.lookup key).or (current.lookup key)).isSome = true := by
      rw [Option.isSome_or]
      rcases object with stored | sent
      · cases here : current.lookup key with
        | none => simp [getField, here, Json.obj?] at stored
        | some value => simp
      · cases here : incoming.lookup key with
        | none => simp [getField, here, Json.obj?] at sent
        | some value => simp
    obtain ⟨latest, kept⟩ := Option.isSome_iff_exists.mp present
    have merged : getField (addUsage current incoming) key =
        combine (.obj (fieldsOf (getField current key))) (.obj (fieldsOf (getField incoming key))) := by
      rw [getField, found, kept, combine_obj]
      simp [mergedValue, others.2.2, member, object]
    obtain ⟨maps, numbers⟩ := at_combine (.obj (fieldsOf (getField current key)))
      (.obj (fieldsOf (getField incoming key))) path
    rw [merged]
    cases path with
    | nil =>
      refine ⟨?_, fun filled => absurd rfl filled⟩
      have either : ((getField current key).obj?.isSome || (getField incoming key).obj?.isSome) = true :=
        (Bool.or_eq_true _ _).mpr object
      rw [maps, mapAt, mapAt, mapAt, mapAt, either]
      rfl
    | cons step path => exact ⟨maps, fun _ => numbers⟩
  · obtain ⟨stored, sent⟩ := not_or.mp object
    simp only [Option.isSome_iff_ne_none, not_not] at stored sent
    have leaf : (getField (addUsage current incoming) key).obj? = none := by
      have latest : (((incoming.lookup key).or (current.lookup key)).getD .null).obj? = none := by
        cases here : incoming.lookup key with
        | none => simpa [getField] using stored
        | some value => simpa [getField, here] using sent
      rw [getField, found]
      cases here : (incoming.lookup key).or (current.lookup key) with
      | none => rfl
      | some value =>
        rw [here] at latest
        simpa [mergedValue, others.2.2, stored, sent] using latest
    obtain ⟨sum_map, sum_number⟩ := at_leaf leaf path
    obtain ⟨stored_map, stored_number⟩ := at_leaf stored path
    obtain ⟨sent_map, sent_number⟩ := at_leaf sent path
    rw [sum_map, stored_map, sent_map]
    refine ⟨rfl, fun filled _ => ?_⟩
    rw [sum_number filled, stored_number filled, sent_number filled, Rat.add_zero]

theorem merge_added {first second : List Fields} {current incoming : Fields}
    (before : Settled current) (after : Settled incoming) (stored : AddsUp first current)
    (sent : AddsUp second incoming) : ∃ usage,
      (if incoming.isEmpty then Except.ok current else if current.isEmpty then .ok incoming
        else .ok (addUsage current incoming) : Except PyError Fields) = .ok usage ∧
      Settled usage ∧ AddsUp (first ++ second) usage := by
  have nothing : ∀ path : List String, mapAt .null path = false ∧ (path ≠ [] → numberAt .null path = 0) :=
    at_leaf rfl
  rcases before.counts with rfl | before_counts
  · refine ⟨incoming, by cases incoming <;> rfl, after, stored.append sent (fun key member => ?_) ?_⟩
    · exact ⟨0, _, rfl, sent.counts key member, by rw [sent.counts key member, Rat.zero_add]⟩
    · intro key member path
      rw [getField_nil, (nothing path).1, Bool.false_or]
      exact ⟨rfl, fun filled _ => by rw [(nothing path).2 filled, Rat.zero_add]⟩
  · rcases after.counts with rfl | after_counts
    · refine ⟨current, rfl, before, stored.append sent (fun key member => ?_) ?_⟩
      · exact ⟨_, 0, stored.counts key member, rfl, by rw [stored.counts key member, Rat.add_zero]⟩
      · intro key member path
        rw [getField_nil, (nothing path).1, Bool.or_false]
        exact ⟨rfl, fun filled _ => by rw [(nothing path).2 filled, Rat.add_zero]⟩
    · have filled : ∀ {usage : Fields}, (∀ key ∈ countKeys, ∃ count : Rat,
          usage.lookup key = some (.num count)) → usage ≠ [] := by
        rintro usage counts rfl
        obtain ⟨count, found⟩ := counts "input_tokens" (by decide)
        cases found
      have current_filled := filled before_counts
      have incoming_filled := filled after_counts
      refine ⟨addUsage current incoming, by simp [current_filled, incoming_filled], ?_,
        stored.append sent (fun key member => ?_) fun key member path =>
          addUsage_details current incoming member path⟩
      · obtain ⟨_, _, _, first⟩ := before.resolve_left current_filled
        obtain ⟨_, _, _, second⟩ := after.resolve_left incoming_filled
        exact .inr ⟨_, _, _, first.add second⟩
      · obtain ⟨a, here⟩ := before_counts key member
        obtain ⟨b, there⟩ := after_counts key member
        have summable : key ∈ summableKeys := by
          simp only [countKeys, List.mem_cons, List.not_mem_nil, or_false] at member
          rcases member with rfl | rfl | rfl <;> decide
        exact ⟨a, b, by simp [getFieldD, here], by simp [getFieldD, there], by
          simp [getFieldD, lookup_addUsage_sum summable here there]⟩

theorem merges_add_up {merges : Merges} (counts : ∀ usage ∈ merges.payloads, TokenCounts usage) :
    ∃ usage normal, merges.result = .ok usage ∧ normalize_usage usage = .ok normal ∧
      Settled normal ∧ AddsUp merges.payloads normal ∧
      ((∃ current incoming, merges = .merge current incoming) → usage = normal) := by
  induction merges with
  | usage payload =>
    have known := counts payload (by simp [Merges.payloads])
    by_cases empty : payload = []
    · subst empty
      exact ⟨[], [], rfl, rfl, .inl rfl, addsUp_normalize rfl (.inl rfl), fun _ => rfl⟩
    · obtain ⟨normal, input, output, total, done, settled, -⟩ := normalize_of_counts known empty
      have settled : Settled normal := .inr ⟨_, _, _, settled⟩
      exact ⟨payload, normal, rfl, done, settled, addsUp_normalize done settled, nofun⟩
  | merge current incoming first second =>
    obtain ⟨stored, current_normal, stored_result, stored_done, before, stored_sums, -⟩ :=
      first fun usage member => counts usage (List.mem_append_left _ member)
    obtain ⟨sent, incoming_normal, sent_result, sent_done, after, sent_sums, -⟩ :=
      second fun usage member => counts usage (List.mem_append_right _ member)
    obtain ⟨usage, merged, settled, sums⟩ := merge_added before after stored_sums sent_sums
    refine ⟨usage, usage, ?_, settled.normalize, settled, sums, fun _ => rfl⟩
    simp only [Merges.result, stored_result, sent_result, bind, Except.bind, merge_usage, stored_done,
      sent_done]
    exact merged

/-- Every merge of usages gives the sums of their normalised counts and of their details, and is
left as it is by normalising. -/
theorem merge_usage_adds_up (current incoming : Merges)
    (counts : ∀ usage ∈ (Merges.merge current incoming).payloads, TokenCounts usage) :
    ∃ usage, (Merges.merge current incoming).result = .ok usage ∧
      AddsUp (Merges.merge current incoming).payloads usage ∧ normalize_usage usage = .ok usage ∧
      ∀ payload ∈ (Merges.merge current incoming).payloads, ∃ normal,
        normalize_usage payload = .ok normal ∧ normalize_usage normal = .ok normal := by
  obtain ⟨usage, normal, result, done, settled, sums, same⟩ := merges_add_up counts
  obtain rfl := same ⟨current, incoming, rfl⟩
  refine ⟨usage, result, sums, settled.normalize, fun payload member => ?_⟩
  by_cases empty : payload = []
  · exact ⟨[], by rw [empty]; rfl, rfl⟩
  · obtain ⟨normal, _, _, _, once, whole, -⟩ := normalize_of_counts (counts payload member) empty
    exact ⟨normal, once, whole.normalize⟩

def threeCalls : Merges × Merges :=
  (.usage [("prompt_tokens", .num 3), ("completion_tokens", .num 1)],
    .merge (.usage [("prompt_eval_count", .num 2)]) (.usage [("eval_count", .num 4)]))

theorem three_calls_add_up :
    ∃ usage, (Merges.merge threeCalls.1 threeCalls.2).result = .ok usage ∧
      AddsUp (Merges.merge threeCalls.1 threeCalls.2).payloads usage ∧
      normalize_usage usage = .ok usage ∧
      ∀ payload ∈ (Merges.merge threeCalls.1 threeCalls.2).payloads, ∃ normal,
        normalize_usage payload = .ok normal ∧ normalize_usage normal = .ok normal :=
  merge_usage_adds_up threeCalls.1 threeCalls.2 (by decide +kernel)

end OpenWebui.Utils
