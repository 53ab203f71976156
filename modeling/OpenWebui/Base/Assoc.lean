/-! Association lists read as insertion-ordered dictionaries: the first entry of a key is its value,
an assignment keeps the position of a present key and puts a new key last. -/

namespace OpenWebui.Assoc

universe u v w
variable {κ : Type u} {β : Type v}

/-- Pairs of texts as keys are compared by their parts. -/
instance pairLawfulBEq : LawfulBEq (String × String) := inferInstance

def keys (entries : List (κ × β)) : List κ := entries.map Prod.fst

@[simp] theorem keys_nil : keys ([] : List (κ × β)) = [] := rfl

@[simp] theorem keys_cons (entry : κ × β) (rest : List (κ × β)) :
    keys (entry :: rest) = entry.1 :: keys rest := rfl

@[simp] theorem keys_append (first second : List (κ × β)) :
    keys (first ++ second) = keys first ++ keys second := by simp [keys]

variable [DecidableEq κ]

/-- `d[key] = value`. -/
def set : List (κ × β) → κ → β → List (κ × β)
  | [], key, value => [(key, value)]
  | (other, old) :: rest, key, value =>
    if other = key then (key, value) :: rest else (other, old) :: set rest key value

/-- `d.pop(key, None)`. -/
def erase (entries : List (κ × β)) (key : κ) : List (κ × β) :=
  entries.filter (fun entry => decide (entry.1 ≠ key))

/-- `{**first, **second}`: present keys keep their position, second values win. -/
def merge (first second : List (κ × β)) : List (κ × β) :=
  first.map (fun entry => (entry.1, (second.lookup entry.1).getD entry.2)) ++
    second.filter (fun entry => decide (entry.1 ∉ keys first))

theorem lookup_cons_self_or (key : κ) (entry : κ × β) (rest : List (κ × β)) :
    (entry :: rest).lookup key = if entry.1 = key then some entry.2 else rest.lookup key := by
  rw [List.lookup_cons]
  by_cases same : entry.1 = key
  · subst same
    simp
  · have test : (key == entry.1) = false := beq_eq_false_iff_ne.mpr (Ne.symm same)
    simp [test, same]

@[simp] theorem lookup_isSome {entries : List (κ × β)} {key : κ} :
    (entries.lookup key).isSome = true ↔ key ∈ keys entries := by
  induction entries with
  | nil => simp
  | cons entry rest ih =>
    rw [lookup_cons_self_or]
    by_cases same : entry.1 = key
    · simp [same]
    · simp [same, ih, Ne.symm same]

theorem lookup_eq_none {entries : List (κ × β)} {key : κ} :
    entries.lookup key = none ↔ key ∉ keys entries := by
  rw [← lookup_isSome, Option.not_isSome_iff_eq_none]

theorem mem_keys_of_lookup {entries : List (κ × β)} {key : κ} {value : β}
    (found : entries.lookup key = some value) : key ∈ keys entries := by
  rw [← lookup_isSome, found]
  rfl

theorem mem_of_lookup {entries : List (κ × β)} {key : κ} {value : β}
    (found : entries.lookup key = some value) : (key, value) ∈ entries := by
  induction entries with
  | nil => simp at found
  | cons entry rest ih =>
    rw [lookup_cons_self_or] at found
    split at found
    · rename_i same
      cases Option.some.inj found
      rw [← same]
      exact List.mem_cons_self ..
    · exact List.mem_cons_of_mem _ (ih found)

theorem lookup_of_mem {entries : List (κ × β)} (unique : (keys entries).Nodup) {entry : κ × β}
    (member : entry ∈ entries) : entries.lookup entry.1 = some entry.2 := by
  induction entries with
  | nil => simp at member
  | cons head rest ih =>
    rw [keys_cons, List.nodup_cons] at unique
    rw [lookup_cons_self_or]
    rcases List.mem_cons.mp member with same | later
    · simp [same]
    · have listed : entry.1 ∈ keys rest := List.mem_map.mpr ⟨entry, later, rfl⟩
      have different : head.1 ≠ entry.1 := by
        intro same
        exact unique.1 (by rw [same]; exact listed)
      rw [if_neg different]
      exact ih unique.2 later

@[simp] theorem lookup_set (entries : List (κ × β)) (key : κ) (value : β) (query : κ) :
    (set entries key value).lookup query =
      if key = query then some value else entries.lookup query := by
  induction entries with
  | nil => simp [set, lookup_cons_self_or]
  | cons entry rest ih =>
    simp only [set]
    split
    · rename_i same
      simp only [lookup_cons_self_or, same]
      split <;> rfl
    · rename_i different
      simp only [lookup_cons_self_or, ih]
      by_cases same : key = query
      · subst same
        simp [different]
      · simp [same]

@[simp] theorem set_set (entries : List (κ × β)) (key : κ) (first second : β) :
    set (set entries key first) key second = set entries key second := by
  induction entries with
  | nil => simp [set]
  | cons entry rest ih =>
    by_cases same : entry.1 = key
    · simp [set, same]
    · simp [set, same, ih]

theorem set_of_lookup {entries : List (κ × β)} {key : κ} {value : β}
    (found : entries.lookup key = some value) : set entries key value = entries := by
  induction entries with
  | nil => cases found
  | cons entry rest ih =>
    obtain ⟨other, old⟩ := entry
    rw [lookup_cons_self_or] at found
    unfold set
    split
    · rename_i same
      rw [if_pos same] at found
      cases Option.some.inj found
      rw [same]
    · rename_i different
      rw [if_neg different] at found
      rw [ih found]

theorem set_of_absent {entries : List (κ × β)} {key : κ} (absent : key ∉ keys entries) (value : β) :
    set entries key value = entries ++ [(key, value)] := by
  induction entries with
  | nil => rfl
  | cons entry rest ih =>
    rw [keys_cons, List.mem_cons, not_or] at absent
    rw [set, if_neg (Ne.symm absent.1), ih absent.2]
    rfl

theorem keys_set (entries : List (κ × β)) (key : κ) (value : β) :
    keys (set entries key value) =
      if key ∈ keys entries then keys entries else keys entries ++ [key] := by
  induction entries with
  | nil => simp [set]
  | cons entry rest ih =>
    simp only [set]
    split
    · rename_i same
      simp [same]
    · rename_i different
      simp only [keys_cons, ih, List.mem_cons, Ne.symm different, false_or]
      split <;> simp

@[simp] theorem mem_keys_set {entries : List (κ × β)} {key query : κ} {value : β} :
    query ∈ keys (set entries key value) ↔ query = key ∨ query ∈ keys entries := by
  rw [keys_set]
  split
  · rename_i present
    constructor
    · exact Or.inr
    · rintro (rfl | member)
      · exact present
      · exact member
  · simp [or_comm]

theorem nodup_keys_set {entries : List (κ × β)} (unique : (keys entries).Nodup) (key : κ)
    (value : β) : (keys (set entries key value)).Nodup := by
  rw [keys_set]
  split
  · exact unique
  · rename_i absent
    rw [List.nodup_append]
    refine ⟨unique, by simp, ?_⟩
    intro present member last final same
    simp only [List.mem_singleton] at final
    subst final
    subst same
    exact absent member

@[simp] theorem lookup_erase (entries : List (κ × β)) (key query : κ) :
    (erase entries key).lookup query = if key = query then none else entries.lookup query := by
  induction entries with
  | nil => simp [erase]
  | cons entry rest ih =>
    unfold erase at ih ⊢
    rw [List.filter_cons]
    by_cases same : entry.1 = key
    · simp only [same, ne_eq, not_true_eq_false, decide_false, Bool.false_eq_true, ↓reduceIte, ih,
        lookup_cons_self_or]
      split <;> rfl
    · simp only [ne_eq, same, not_false_eq_true, decide_true, ↓reduceIte, lookup_cons_self_or, ih]
      by_cases hit : key = query
      · subst hit
        simp [same]
      · simp [hit]

theorem keys_erase (entries : List (κ × β)) (key : κ) :
    keys (erase entries key) = (keys entries).filter (fun other => decide (other ≠ key)) := by
  simp only [keys, erase, List.filter_map]
  rfl

theorem erase_set (entries : List (κ × β)) (key : κ) (value : β) :
    erase (set entries key value) key = erase entries key := by
  induction entries with
  | nil => simp [set, erase]
  | cons entry rest ih =>
    obtain ⟨other, old⟩ := entry
    unfold set
    split
    · rename_i same
      simp [erase, same]
    · rename_i different
      simpa [erase, different] using ih

theorem nodup_keys_erase {entries : List (κ × β)} (unique : (keys entries).Nodup) (key : κ) :
    (keys (erase entries key)).Nodup := by
  rw [keys_erase]
  exact unique.filter _

theorem lookup_append (first second : List (κ × β)) (query : κ) :
    (first ++ second).lookup query = (first.lookup query).or (second.lookup query) := by
  induction first with
  | nil => simp
  | cons entry rest ih =>
    rw [List.cons_append, lookup_cons_self_or, lookup_cons_self_or, ih]
    split <;> simp

theorem lookup_map_value {γ : Type w} (entries : List (κ × β)) (update : κ → β → γ) (query : κ) :
    (entries.map (fun entry => (entry.1, update entry.1 entry.2))).lookup query =
      (entries.lookup query).map (update query) := by
  induction entries with
  | nil => simp
  | cons entry rest ih =>
    rw [List.map_cons, lookup_cons_self_or, lookup_cons_self_or, ih]
    split
    · rename_i same
      simp only [Option.map_some]
      rw [show query = entry.1 from same.symm]
    · rfl

theorem lookup_filterMap_value {γ : Type w} {entries : List (κ × β)}
    (unique : (keys entries).Nodup) (read : β → Option γ) (query : κ) :
    (entries.filterMap (fun entry => (read entry.2).map (fun value => (entry.1, value)))).lookup query =
      (entries.lookup query).bind read := by
  induction entries with
  | nil => rfl
  | cons entry rest ih =>
    rw [keys_cons, List.nodup_cons] at unique
    simp only [List.filterMap_cons, lookup_cons_self_or]
    cases seen : read entry.2 with
    | none =>
      simp only [Option.map_none, ih unique.2]
      split
      · rename_i same
        subst same
        rw [lookup_eq_none.mpr unique.1]
        simp [seen]
      · rfl
    | some value =>
      simp only [Option.map_some, lookup_cons_self_or, ih unique.2]
      split
      · simp [seen]
      · rfl

theorem lookup_filter_key (entries : List (κ × β)) (keep : κ → Bool) (query : κ) :
    (entries.filter (fun entry => keep entry.1)).lookup query =
      if keep query then entries.lookup query else none := by
  induction entries with
  | nil => simp
  | cons entry rest ih =>
    rw [List.filter_cons, lookup_cons_self_or]
    by_cases same : entry.1 = query
    · subst same
      split
      · simp [lookup_cons_self_or]
      · rename_i dropped
        rw [ih, if_neg dropped]
    · split
      · rw [lookup_cons_self_or, if_neg same, ih]
      · exact ih

@[simp] theorem lookup_merge (first second : List (κ × β)) (query : κ) :
    (merge first second).lookup query = (second.lookup query).or (first.lookup query) := by
  have kept := lookup_filter_key second (fun key => decide (key ∉ keys first)) query
  rw [merge, lookup_append, lookup_map_value first (fun key old => (second.lookup key).getD old),
    kept]
  by_cases present : query ∈ keys first
  · obtain ⟨old, found⟩ := Option.isSome_iff_exists.mp (lookup_isSome.mpr present)
    cases second.lookup query <;> simp [found]
  · have missing := lookup_eq_none.mpr present
    cases second.lookup query <;> simp [missing, present]

theorem keys_merge (first second : List (κ × β)) :
    keys (merge first second) =
      keys first ++ (keys second).filter (fun key => decide (key ∉ keys first)) := by
  rw [merge, keys_append]
  congr 1
  · simp [keys, Function.comp_def]
  · simp only [keys, List.filter_map]
    rfl

@[simp] theorem mem_keys_merge {first second : List (κ × β)} {key : κ} :
    key ∈ keys (merge first second) ↔ key ∈ keys first ∨ key ∈ keys second := by
  rw [keys_merge, List.mem_append, List.mem_filter]
  by_cases present : key ∈ keys first <;> simp [present]

theorem nodup_keys_merge {first second : List (κ × β)} (unique : (keys first).Nodup)
    (other : (keys second).Nodup) : (keys (merge first second)).Nodup := by
  rw [keys_merge, List.nodup_append]
  refine ⟨unique, other.filter _, ?_⟩
  intro key member query kept same
  subst same
  have absent := (List.mem_filter.mp kept).2
  simp [member] at absent

theorem entries_eq_map {entries : List (κ × β)} (unique : (keys entries).Nodup) :
    entries.map (fun entry => (entry.1, some entry.2)) =
      (keys entries).map (fun key => (key, entries.lookup key)) := by
  rw [keys, List.map_map]
  apply List.map_congr_left
  intro entry member
  have found : entries.lookup entry.1 = some entry.2 := lookup_of_mem unique member
  simp [found]

theorem ext_of_keys {first second : List (κ × β)} (unique : (keys first).Nodup)
    (order : keys first = keys second) (agree : ∀ key, first.lookup key = second.lookup key) :
    first = second := by
  have pairs : first.map (fun entry => (entry.1, some entry.2)) =
      second.map (fun entry => (entry.1, some entry.2)) := by
    rw [entries_eq_map unique, entries_eq_map (order ▸ unique), order]
    simp only [agree]
  refine (List.map_inj_right ?_).mp pairs
  rintro ⟨key, value⟩ ⟨other, final⟩ same
  simpa using same

end OpenWebui.Assoc
