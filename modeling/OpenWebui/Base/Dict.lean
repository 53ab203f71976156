import OpenWebui.Base.Assoc

/-! Insertion-ordered dictionaries: an association list that carries the proof
that no key is repeated, so that iterating it visits every key once. -/

namespace OpenWebui

universe u v w

structure Dict (κ : Type u) (β : Type v) where
  entries : List (κ × β)
  unique : (Assoc.keys entries).Nodup

namespace Dict

variable {κ : Type u} {β : Type v} {γ : Type w}

def keys (dict : Dict κ β) : List κ := Assoc.keys dict.entries

def empty : Dict κ β := ⟨[], List.nodup_nil⟩

theorem eq_of_entries {first second : Dict κ β} (same : first.entries = second.entries) :
    first = second := by
  cases first
  cases second
  cases same
  rfl

theorem keys_nodup (dict : Dict κ β) : dict.keys.Nodup := dict.unique

@[simp] theorem keys_empty : (empty : Dict κ β).keys = [] := rfl

def mapValue (dict : Dict κ β) (update : κ → β → γ) : Dict κ γ where
  entries := dict.entries.map (fun entry => (entry.1, update entry.1 entry.2))
  unique := by simpa [Assoc.keys, Function.comp_def] using dict.unique

@[simp] theorem keys_mapValue (dict : Dict κ β) (update : κ → β → γ) :
    (dict.mapValue update).keys = dict.keys := by
  simp [keys, mapValue, Assoc.keys, Function.comp_def]

variable [DecidableEq κ]

def get? (dict : Dict κ β) (key : κ) : Option β := dict.entries.lookup key

def set (dict : Dict κ β) (key : κ) (value : β) : Dict κ β :=
  ⟨Assoc.set dict.entries key value, Assoc.nodup_keys_set dict.unique key value⟩

def erase (dict : Dict κ β) (key : κ) : Dict κ β :=
  ⟨Assoc.erase dict.entries key, Assoc.nodup_keys_erase dict.unique key⟩

def merge (first second : Dict κ β) : Dict κ β :=
  ⟨Assoc.merge first.entries second.entries, Assoc.nodup_keys_merge first.unique second.unique⟩

def modify (dict : Dict κ β) (key : κ) (update : β → β) : Dict κ β :=
  match dict.get? key with
  | none => dict
  | some value => dict.set key (update value)

def ofEntries : List (κ × β) → Dict κ β
  | [] => empty
  | entry :: rest =>
    { entries := entry :: ((ofEntries rest).erase entry.1).entries
      unique := by
        rw [Assoc.keys_cons, List.nodup_cons]
        refine ⟨?_, ((ofEntries rest).erase entry.1).unique⟩
        simp [erase, Assoc.keys_erase] }

def filterMapValue (dict : Dict κ β) (read : β → Option γ) : Dict κ γ where
  entries := dict.entries.filterMap (fun entry => (read entry.2).map (fun value => (entry.1, value)))
  unique := by
    refine List.Nodup.sublist ?_ dict.unique
    simp only [Assoc.keys, List.map_filterMap, Option.map_map, Function.comp_def]
    induction dict.entries with
    | nil => exact List.Sublist.refl _
    | cons entry rest ih =>
      rw [List.filterMap_cons, List.map_cons]
      cases read entry.2 with
      | none => exact ih.cons _
      | some value => exact ih.cons_cons _

@[simp] theorem get?_isSome {dict : Dict κ β} {key : κ} :
    (dict.get? key).isSome = true ↔ key ∈ dict.keys := Assoc.lookup_isSome

theorem get?_eq_none {dict : Dict κ β} {key : κ} : dict.get? key = none ↔ key ∉ dict.keys :=
  Assoc.lookup_eq_none

theorem mem_keys_of_get? {dict : Dict κ β} {key : κ} {value : β}
    (found : dict.get? key = some value) : key ∈ dict.keys := Assoc.mem_keys_of_lookup found

theorem exists_of_mem_keys {dict : Dict κ β} {key : κ} (member : key ∈ dict.keys) :
    ∃ value, dict.get? key = some value :=
  Option.isSome_iff_exists.mp (get?_isSome.mpr member)

theorem mem_entries_iff {dict : Dict κ β} {key : κ} {value : β} :
    (key, value) ∈ dict.entries ↔ dict.get? key = some value :=
  ⟨fun member => Assoc.lookup_of_mem dict.unique member, Assoc.mem_of_lookup⟩

theorem mem_keys_filter {dict : Dict κ β} {keep : κ × β → Bool} {key : κ} :
    key ∈ (dict.entries.filter keep).map Prod.fst ↔
      ∃ value, dict.get? key = some value ∧ keep (key, value) = true := by
  rw [List.mem_map]
  constructor
  · rintro ⟨entry, kept, rfl⟩
    obtain ⟨member, meets⟩ := List.mem_filter.mp kept
    exact ⟨entry.2, mem_entries_iff.mp member, meets⟩
  · rintro ⟨value, found, meets⟩
    exact ⟨(key, value), List.mem_filter.mpr ⟨mem_entries_iff.mpr found, meets⟩, rfl⟩

@[simp] theorem get?_empty (key : κ) : (empty : Dict κ β).get? key = none := rfl

@[simp] theorem get?_set (dict : Dict κ β) (key : κ) (value : β) (query : κ) :
    (dict.set key value).get? query = if key = query then some value else dict.get? query :=
  Assoc.lookup_set ..

@[simp] theorem mem_keys_set {dict : Dict κ β} {key query : κ} {value : β} :
    query ∈ (dict.set key value).keys ↔ query = key ∨ query ∈ dict.keys := Assoc.mem_keys_set

theorem keys_set_of_mem {dict : Dict κ β} {key : κ} (member : key ∈ dict.keys) (value : β) :
    (dict.set key value).keys = dict.keys := by
  have present : key ∈ Assoc.keys dict.entries := member
  simp only [keys, set, Assoc.keys_set, if_pos present]

theorem keys_set_of_fresh {dict : Dict κ β} {key : κ} (fresh : key ∉ dict.keys) (value : β) :
    (dict.set key value).keys = dict.keys ++ [key] := by
  have absent : key ∉ Assoc.keys dict.entries := fresh
  simp only [keys, set, Assoc.keys_set, if_neg absent]

theorem entries_set_of_fresh {dict : Dict κ β} {key : κ} (fresh : key ∉ dict.keys) (value : β) :
    (dict.set key value).entries = dict.entries ++ [(key, value)] :=
  Assoc.set_of_absent fresh value

theorem entries_foldl_set {α : Type w} {key : α → κ} {value : α → β} {items : List α}
    (distinct : (items.map key).Nodup) (dict : Dict κ β)
    (fresh : ∀ item ∈ items, key item ∉ dict.keys) :
    (items.foldl (fun current item => current.set (key item) (value item)) dict).entries =
      dict.entries ++ items.map (fun item => (key item, value item)) := by
  induction items generalizing dict with
  | nil => simp
  | cons item rest ih =>
    rw [List.map_cons, List.nodup_cons] at distinct
    have added := entries_set_of_fresh (fresh item (by simp)) (value item)
    have fresh_later : ∀ later ∈ rest, key later ∉ (dict.set (key item) (value item)).keys := by
      intro later member
      have other : key later ≠ key item := by
        intro same
        exact distinct.1 (same ▸ List.mem_map_of_mem member)
      have absent := fresh later (by simp [member])
      simp only [keys, added, Assoc.keys, List.map_append, List.mem_append, List.map_cons, List.map_nil,
        List.mem_singleton, not_or]
      exact ⟨absent, other⟩
    rw [List.foldl_cons, ih distinct.2 _ fresh_later, added]
    simp

@[simp] theorem get?_erase (dict : Dict κ β) (key query : κ) :
    (dict.erase key).get? query = if key = query then none else dict.get? query :=
  Assoc.lookup_erase ..

@[simp] theorem mem_keys_erase {dict : Dict κ β} {key query : κ} :
    query ∈ (dict.erase key).keys ↔ query ≠ key ∧ query ∈ dict.keys := by
  simp [keys, erase, Assoc.keys_erase, and_comm]

@[simp] theorem get?_modify (dict : Dict κ β) (key : κ) (update : β → β) (query : κ) :
    (dict.modify key update).get? query =
      if key = query then (dict.get? query).map update else dict.get? query := by
  unfold modify
  cases found : dict.get? key with
  | none =>
    dsimp only
    split
    · rename_i same
      subst same
      simp [found]
    · rfl
  | some value =>
    simp only [get?_set]
    split
    · rename_i same
      subst same
      simp [found]
    · rfl

theorem get?_modify_cases {dict : Dict κ β} {key query : κ} {update : β → β} {value : β}
    (found : (dict.modify key update).get? query = some value) :
    (key = query ∧ ∃ old, dict.get? query = some old ∧ value = update old) ∨
      (key ≠ query ∧ dict.get? query = some value) := by
  rw [get?_modify] at found
  split at found
  · rename_i same
    obtain ⟨old, stored, rfl⟩ := Option.map_eq_some_iff.mp found
    exact Or.inl ⟨same, old, stored, rfl⟩
  · rename_i apart
    exact Or.inr ⟨apart, found⟩

@[simp] theorem keys_modify (dict : Dict κ β) (key : κ) (update : β → β) :
    (dict.modify key update).keys = dict.keys := by
  unfold modify
  cases found : dict.get? key with
  | none => rfl
  | some value => exact keys_set_of_mem (mem_keys_of_get? found) _

@[simp] theorem keys_foldl_modify (dict : Dict κ β) (keys : List κ) (update : β → β) :
    (keys.foldl (fun current key => current.modify key update) dict).keys = dict.keys := by
  induction keys generalizing dict with
  | nil => rfl
  | cons key rest ih => rw [List.foldl_cons, ih, keys_modify]

theorem get?_foldl_modify (dict : Dict κ β) {keys : List κ} (distinct : keys.Nodup)
    (update : β → β) (query : κ) :
    (keys.foldl (fun current key => current.modify key update) dict).get? query =
      if query ∈ keys then (dict.get? query).map update else dict.get? query := by
  induction keys generalizing dict with
  | nil => simp
  | cons key rest ih =>
    rw [List.nodup_cons] at distinct
    rw [List.foldl_cons, ih _ distinct.2, get?_modify]
    by_cases same : key = query
    · subst same
      simp [distinct.1]
    · simp [same, Ne.symm same]

def filterKeys (dict : Dict κ β) (keep : κ → Bool) : Dict κ β where
  entries := dict.entries.filter (fun entry => keep entry.1)
  unique := List.Nodup.sublist (List.filter_sublist.map Prod.fst) dict.unique

@[simp] theorem get?_filterKeys (dict : Dict κ β) (keep : κ → Bool) (query : κ) :
    (dict.filterKeys keep).get? query = if keep query then dict.get? query else none :=
  Assoc.lookup_filter_key ..

theorem get?_foldl_set {α : Type w} (dict : Dict κ β) (items : List α) (key : α → κ) (value : α → β)
    (query : κ) :
    (items.foldl (fun current item => current.set (key item) (value item)) dict).get? query =
      ((items.reverse.find? (fun item => decide (key item = query))).map value).or
        (dict.get? query) := by
  induction items generalizing dict with
  | nil => rfl
  | cons item rest ih =>
    rw [List.foldl_cons, ih, List.reverse_cons, List.find?_append, get?_set]
    cases rest.reverse.find? (fun item => decide (key item = query)) with
    | some later => rfl
    | none =>
      by_cases same : key item = query
      · simp [same]
      · simp [same]

@[simp] theorem get?_foldl_erase (dict : Dict κ β) (keys : List κ) (query : κ) :
    (keys.foldl erase dict).get? query = if query ∈ keys then none else dict.get? query := by
  induction keys generalizing dict with
  | nil => simp
  | cons key rest ih =>
    rw [List.foldl_cons, ih, get?_erase]
    by_cases same : key = query
    · simp [same]
    · simp [same, Ne.symm same]

@[simp] theorem mem_keys_foldl_erase {dict : Dict κ β} {keys : List κ} {query : κ} :
    query ∈ (keys.foldl erase dict).keys ↔ query ∉ keys ∧ query ∈ dict.keys := by
  rw [← get?_isSome, get?_foldl_erase, ← get?_isSome]
  split <;> simp [*]

@[simp] theorem get?_merge (first second : Dict κ β) (query : κ) :
    (first.merge second).get? query = (second.get? query).or (first.get? query) :=
  Assoc.lookup_merge ..

@[simp] theorem mem_keys_merge {first second : Dict κ β} {key : κ} :
    key ∈ (first.merge second).keys ↔ key ∈ first.keys ∨ key ∈ second.keys := Assoc.mem_keys_merge

@[simp] theorem get?_mapValue (dict : Dict κ β) (update : κ → β → γ) (query : κ) :
    (dict.mapValue update).get? query = (dict.get? query).map (update query) :=
  Assoc.lookup_map_value ..

@[simp] theorem get?_ofEntries (entries : List (κ × β)) (query : κ) :
    (ofEntries entries).get? query = entries.lookup query := by
  induction entries with
  | nil => rfl
  | cons entry rest ih =>
    have tail : ((ofEntries rest).erase entry.1).entries.lookup query =
        ((ofEntries rest).erase entry.1).get? query := rfl
    simp only [ofEntries]
    unfold get?
    simp only [Assoc.lookup_cons_self_or, tail, get?_erase, ih]
    split <;> rfl

theorem ofEntries_of_nodup {entries : List (κ × β)} (unique : (Assoc.keys entries).Nodup) :
    (ofEntries entries).entries = entries := by
  induction entries with
  | nil => rfl
  | cons entry rest ih =>
    rw [Assoc.keys_cons, List.nodup_cons] at unique
    simp only [ofEntries, erase, ih unique.2, Assoc.erase]
    congr 1
    apply List.filter_eq_self.mpr
    intro other member
    have different : other.1 ≠ entry.1 := by
      intro same
      exact unique.1 (List.mem_map.mpr ⟨other, member, same⟩)
    simpa using different

@[simp] theorem ofEntries_entries (dict : Dict κ β) : ofEntries dict.entries = dict :=
  eq_of_entries (ofEntries_of_nodup dict.unique)

@[simp] theorem get?_filterMapValue (dict : Dict κ β) (read : β → Option γ) (query : κ) :
    (dict.filterMapValue read).get? query = (dict.get? query).bind read :=
  Assoc.lookup_filterMap_value dict.unique read query

theorem keys_merge (first second : Dict κ β) :
    (first.merge second).keys =
      first.keys ++ second.keys.filter (fun key => decide (key ∉ first.keys)) :=
  Assoc.keys_merge ..

theorem keys_filterMapValue (dict : Dict κ β) (read : β → Option γ) :
    (dict.filterMapValue read).keys =
      dict.keys.filter (fun key => ((dict.get? key).bind read).isSome) := by
  have pointwise : dict.entries.filter (fun entry => ((dict.get? entry.1).bind read).isSome) =
      dict.entries.filter (fun entry => (read entry.2).isSome) := by
    apply List.filter_congr
    intro entry member
    simp [mem_entries_iff.mp member]
  simp only [keys, Assoc.keys, filterMapValue, List.filter_map, Function.comp_def, pointwise]
  induction dict.entries with
  | nil => rfl
  | cons entry rest ih =>
    cases seen : read entry.2 <;> simp [seen, ih]

theorem ext_of_keys {first second : Dict κ β} (order : first.keys = second.keys)
    (agree : ∀ key, first.get? key = second.get? key) : first = second :=
  eq_of_entries (Assoc.ext_of_keys first.unique order agree)

theorem mapValue_mapValue {δ : Type v} (dict : Dict κ β) (first : κ → β → γ) (second : κ → γ → δ) :
    (dict.mapValue first).mapValue second =
      dict.mapValue (fun key value => second key (first key value)) :=
  ext_of_keys (by simp) fun key => by simp [Option.map_map, Function.comp_def]

theorem mapValue_modify {dict : Dict κ β} {key : κ} {update : β → β} {view : κ → β → γ}
    (unseen : ∀ value, dict.get? key = some value → view key (update value) = view key value) :
    (dict.modify key update).mapValue view = dict.mapValue view := by
  apply ext_of_keys (by simp)
  intro query
  rw [get?_mapValue, get?_mapValue, get?_modify]
  split
  · rename_i same
    subst same
    cases found : dict.get? key with
    | none => rfl
    | some value => simp [unseen value found]
  · rfl

theorem merge_again (first second : Dict κ β) :
    (first.merge second).merge second = first.merge second := by
  apply ext_of_keys
  · rw [keys_merge (first.merge second)]
    have nothing : second.keys.filter (fun key => decide (key ∉ (first.merge second).keys)) = [] := by
      apply List.filter_eq_nil_iff.mpr
      intro key member
      simp [member]
    rw [nothing, List.append_nil]
  · intro key
    rw [get?_merge, get?_merge, ← Option.or_assoc, Option.or_self]

end Dict

end OpenWebui
