import Mathlib.Data.List.Nodup
import OpenWebui.Base.Dict

/-! Lists that are extended by the items whose key they do not have yet, so that the first item of a
key is the one that stays. -/

namespace OpenWebui

universe u v

variable {α : Type u} {κ : Type v} [DecidableEq κ] (key : α → κ)

def appendNew (items : List α) (item : α) : List α :=
  if key item ∈ items.map key then items else items ++ [item]

theorem appendNew_nodup {items : List α} (distinct : (items.map key).Nodup) (item : α) :
    ((appendNew key items item).map key).Nodup := by
  unfold appendNew
  split
  · exact distinct
  · rename_i fresh
    simp only [List.map_append, List.map_cons, List.map_nil]
    refine List.nodup_append.mpr ⟨distinct, by simp, ?_⟩
    intro first member last same
    obtain rfl := List.mem_singleton.mp same
    rintro rfl
    exact fresh member

theorem foldl_appendNew_nodup (news : List α) {items : List α} (distinct : (items.map key).Nodup) :
    ((news.foldl (appendNew key) items).map key).Nodup := by
  induction news generalizing items with
  | nil => exact distinct
  | cons item rest ih => exact ih (appendNew_nodup key distinct item)

def findKey (items : List α) (query : κ) : Option α :=
  items.find? (fun item => decide (key item = query))

theorem findKey_append (first second : List α) (query : κ) :
    findKey key (first ++ second) query = (findKey key first query).or (findKey key second query) :=
  List.find?_append

theorem findKey_eq_none {items : List α} {query : κ} :
    findKey key items query = none ↔ query ∉ items.map key := by
  simp [findKey, List.mem_map]

theorem findKey_some {items : List α} {query : κ} {item : α}
    (found : findKey key items query = some item) : item ∈ items ∧ key item = query := by
  refine ⟨List.mem_of_find?_eq_some found, ?_⟩
  simpa using List.find?_some found

theorem findKey_of_mem {items : List α} (distinct : (items.map key).Nodup) {item : α}
    (member : item ∈ items) : findKey key items (key item) = some item := by
  cases found : findKey key items (key item) with
  | none => exact absurd (List.mem_map_of_mem member) ((findKey_eq_none key).mp found)
  | some other =>
    obtain ⟨there, same⟩ := findKey_some key found
    exact congrArg some (List.inj_on_of_nodup_map distinct there member same)

theorem findKey_appendNew (items : List α) (item : α) (query : κ) :
    findKey key (appendNew key items item) query =
      (findKey key items query).or (findKey key [item] query) := by
  unfold appendNew
  split
  · rename_i present
    cases found : findKey key items query with
    | some other => rfl
    | none =>
      have absent := (findKey_eq_none key).mp found
      have different : key item ≠ query := fun same => absent (same ▸ present)
      simp [findKey, different]
  · exact findKey_append key items [item] query

theorem findKey_foldl_appendNew (news items : List α) (query : κ) :
    findKey key (news.foldl (appendNew key) items) query =
      (findKey key items query).or (findKey key news query) := by
  induction news generalizing items with
  | nil => simp [findKey]
  | cons item rest ih =>
    rw [List.foldl_cons, ih, findKey_appendNew, Option.or_assoc, ← findKey_append]
    rfl

theorem mem_keys_foldl_appendNew {news items : List α} {query : κ} :
    query ∈ (news.foldl (appendNew key) items).map key ↔
      query ∈ items.map key ∨ query ∈ news.map key := by
  rw [← not_iff_not, not_or, ← findKey_eq_none, findKey_foldl_appendNew, Option.or_eq_none_iff,
    findKey_eq_none, findKey_eq_none]

end OpenWebui

namespace OpenWebui

universe u v w

variable {α : Type u} {κ : Type v} {γ : Type w} [DecidableEq κ] [DecidableEq γ]

def firsts (key : α → κ) (items : List α) : List α := items.foldl (appendNew key) []

def keysInOrder (key : α → κ) (items : List α) : List κ := (firsts key items).map key

theorem firsts_append (key : α → κ) (first second : List α) :
    firsts key (first ++ second) = second.foldl (appendNew key) (firsts key first) := by
  simp [firsts]

theorem keysInOrder_nodup (key : α → κ) (items : List α) : (keysInOrder key items).Nodup :=
  foldl_appendNew_nodup key items List.nodup_nil

theorem mem_keysInOrder {key : α → κ} {items : List α} {query : κ} :
    query ∈ keysInOrder key items ↔ query ∈ items.map key := by
  rw [keysInOrder, firsts, mem_keys_foldl_appendNew]
  simp

theorem keysInOrder_eq (key : α → κ) (items : List α) :
    keysInOrder key items = firsts id (items.map key) := by
  have same : ∀ news start : List α, (news.foldl (appendNew key) start).map key =
      (news.map key).foldl (appendNew id) (start.map key) := by
    intro news
    induction news with
    | nil => exact fun _ => rfl
    | cons item rest ih =>
      intro start
      have step : (appendNew key start item).map key = appendNew id (start.map key) (key item) := by
        simp only [appendNew, List.map_id, id_eq]
        split <;> simp
      rw [List.foldl_cons, ih, step]
      rfl
  exact same items []

theorem foldl_appendNew_extends (key : α → κ) (news items : List α) :
    items <+: news.foldl (appendNew key) items := by
  induction news generalizing items with
  | nil => exact List.prefix_refl items
  | cons item rest ih =>
    refine List.IsPrefix.trans ?_ (ih _)
    unfold appendNew
    split
    · exact List.prefix_refl items
    · exact List.prefix_append items [item]

theorem keysInOrder_extends (key : α → κ) {shorter longer : List α} (more : shorter <+: longer) :
    keysInOrder key shorter <+: keysInOrder key longer := by
  obtain ⟨rest, rfl⟩ := more
  rw [keysInOrder, keysInOrder, firsts_append]
  exact (foldl_appendNew_extends key rest _).map key

theorem firsts_subset (key : α → κ) (items : List α) : firsts key items ⊆ items := by
  have inside : ∀ news start : List α, news.foldl (appendNew key) start ⊆ start ++ news := by
    intro news
    induction news with
    | nil => intro start; simp [List.foldl_nil]
    | cons item rest ih =>
      intro start other member
      have before := ih _ member
      unfold appendNew at before
      split at before
      · rcases List.mem_append.mp before with old | late
        · exact List.mem_append_left _ old
        · exact List.mem_append_right _ (List.mem_cons_of_mem _ late)
      · simpa [List.append_assoc] using before
  simpa [firsts] using inside items []

theorem firsts_congr {first : α → κ} {second : α → γ} {items : List α}
    (same : ∀ one ∈ items, ∀ two ∈ items, first one = first two ↔ second one = second two) :
    firsts first items = firsts second items := by
  have kept : ∀ news start : List α, (∀ item ∈ start ++ news, item ∈ items) →
      news.foldl (appendNew first) start = news.foldl (appendNew second) start := by
    intro news
    induction news with
    | nil => exact fun _ _ => rfl
    | cons item rest ih =>
      intro start inside
      have step : appendNew first start item = appendNew second start item := by
        have present : first item ∈ start.map first ↔ second item ∈ start.map second := by
          simp only [List.mem_map]
          refine exists_congr (fun other => and_congr_right (fun member => ?_))
          exact same other (inside other (by simp [member])) item (inside item (by simp))
        simp only [appendNew, present]
      rw [List.foldl_cons, List.foldl_cons, step]
      refine ih _ ?_
      intro other member
      rcases List.mem_append.mp member with old | late
      · unfold appendNew at old
        split at old
        · exact inside other (by simp [old])
        · refine inside other ?_
          simp only [List.mem_append, List.mem_singleton] at old
          simp only [List.mem_append, List.mem_cons]
          exact old.imp_right Or.inl
      · exact inside other (by simp [late])
  exact kept items [] (fun item member => by simpa using member)

theorem same_places_iff {numbered shown : List α} {first : α → κ} {second : α → γ} :
    (∀ item ∈ numbered, ∀ place : Nat, (keysInOrder first numbered)[place]? = some (first item) →
        (keysInOrder second shown)[place]? = some (second item)) ↔
      (∀ one ∈ numbered, ∀ two ∈ numbered, first one = first two ↔ second one = second two) ∧
        keysInOrder second numbered <+: keysInOrder second shown := by
  constructor
  · intro places
    have placed : ∀ item ∈ numbered, ∃ place : Nat,
        (keysInOrder first numbered)[place]? = some (first item) :=
      fun item member => List.mem_iff_getElem?.mp (mem_keysInOrder.mpr (List.mem_map_of_mem member))
    have apart : ∀ one ∈ numbered, ∀ two ∈ numbered,
        first one = first two ↔ second one = second two := by
      intro one here two there
      obtain ⟨place, at_one⟩ := placed one here
      obtain ⟨other, at_two⟩ := placed two there
      constructor
      · intro same
        have again := places two there place (by rw [at_one, same])
        exact Option.some.inj ((places one here place at_one).symm.trans again)
      · intro same
        have shown_one := places one here place at_one
        have shown_two := places two there other at_two
        rw [← same] at shown_two
        have places_eq : place = other :=
          (List.getElem?_inj (List.getElem?_eq_some_iff.mp shown_one).1
            (keysInOrder_nodup second shown)).mp (shown_one.trans shown_two.symm)
        rw [places_eq] at at_one
        exact Option.some.inj (at_one.symm.trans at_two)
    refine ⟨apart, ?_⟩
    rw [List.prefix_iff_getElem?]
    intro place inside
    have reps := firsts_congr apart
    have short : place < (firsts second numbered).length := by
      simpa [keysInOrder] using inside
    have member : (firsts second numbered)[place] ∈ numbered :=
      firsts_subset second numbered (List.getElem_mem short)
    have shown_here := places _ member place (by
      rw [keysInOrder, reps, List.getElem?_map, List.getElem?_eq_getElem short, Option.map_some])
    rw [shown_here]
    simp [keysInOrder]
  · rintro ⟨apart, begins⟩ item member place found
    have reps := firsts_congr apart
    rw [keysInOrder, reps, List.getElem?_map] at found
    obtain ⟨rep, there, same⟩ := Option.map_eq_some_iff.mp found
    have rep_member : rep ∈ numbered :=
      firsts_subset second numbered (List.mem_of_getElem? there)
    have second_same := (apart rep rep_member item member).mp same
    have own : (keysInOrder second numbered)[place]? = some (second item) := by
      rw [keysInOrder, List.getElem?_map, there, Option.map_some, second_same]
    obtain ⟨inside, value⟩ := List.getElem?_eq_some_iff.mp own
    rw [List.prefix_iff_getElem?.mp begins place inside, value]

def addNumber (numbers : Dict κ Nat) (key : κ) : Dict κ Nat :=
  if key ∈ numbers.keys then numbers else numbers.set key (numbers.keys.length + 1)

/-- The dictionary gives every key its place in the list, from one on. -/
structure Numbers (numbers : Dict κ Nat) (keys : List κ) : Prop where
  keys_eq : numbers.keys = keys
  number_iff : ∀ key n, numbers.get? key = some n ↔
    ∃ place : Nat, n = place + 1 ∧ keys[place]? = some key

theorem numbers_empty : Numbers (Dict.empty : Dict κ Nat) [] :=
  ⟨rfl, fun key n => by simp⟩

omit [DecidableEq κ] in
theorem getElem?_concat_iff {keys : List κ} {key query : κ} (place : Nat) :
    (keys ++ [key])[place]? = some query ↔
      keys[place]? = some query ∨ (place = keys.length ∧ key = query) := by
  rcases Nat.lt_trichotomy place keys.length with before | rfl | after
  · rw [List.getElem?_append_left before]
    exact ⟨Or.inl, fun found => found.resolve_right (fun last => absurd last.1 (by omega))⟩
  · simp
  · rw [List.getElem?_eq_none (by simp; omega), List.getElem?_eq_none (by omega)]
    simp
    omega

theorem Numbers.add {numbers : Dict κ Nat} {keys : List κ} (counted : Numbers numbers keys) {key : κ}
    (fresh : key ∉ keys) : Numbers (numbers.set key (keys.length + 1)) (keys ++ [key]) := by
  constructor
  · rw [← counted.keys_eq] at fresh ⊢
    exact Dict.keys_set_of_fresh fresh _
  · intro query n
    simp only [getElem?_concat_iff]
    rw [Dict.get?_set]
    by_cases same : key = query
    · subst same
      rw [if_pos rfl]
      constructor
      · intro number
        exact ⟨keys.length, (Option.some.inj number).symm, Or.inr ⟨rfl, rfl⟩⟩
      · rintro ⟨place, rfl, there | ⟨rfl, _⟩⟩
        · exact absurd (List.mem_of_getElem? there) fresh
        · rfl
    · rw [if_neg same, counted.number_iff]
      simp only [same, and_false, or_false]

theorem Numbers.addNumber {numbers : Dict κ Nat} {key : α → κ} {items : List α}
    (counted : Numbers numbers (keysInOrder key items)) (item : α) :
    Numbers (addNumber numbers (key item)) (keysInOrder key (items ++ [item])) := by
  have kept : firsts key (items ++ [item]) = appendNew key (firsts key items) item :=
    firsts_append key items [item]
  unfold keysInOrder at counted ⊢
  rw [kept, OpenWebui.addNumber, counted.keys_eq, appendNew]
  by_cases present : key item ∈ (firsts key items).map key
  · rw [if_pos present, if_pos present]
    exact counted
  · rw [if_neg present, if_neg present, List.map_append, List.map_singleton]
    exact counted.add present

end OpenWebui
