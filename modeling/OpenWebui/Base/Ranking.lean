import Mathlib.Data.List.Dedup
import Mathlib.Data.List.Induction
import Mathlib.Data.List.Perm.Subperm
import Mathlib.Order.Lattice
import OpenWebui.Base.Dict

/-! The best items of a list that may have several items of one key. -/

namespace OpenWebui.Ranking

universe u v w

variable {κ : Type u} {α : Type v} {σ : Type w} [DecidableEq κ] [LinearOrder σ]
variable (key : α → κ) (score : α → σ)

def keep (kept : Dict κ α) (item : α) : Dict κ α :=
  match kept.get? (key item) with
  | none => kept.set (key item) item
  | some best => if score best < score item then kept.set (key item) item else kept

def ranked (items : List α) : List α :=
  items.mergeSort (fun first second => decide (score second ≤ score first))

def values (kept : Dict κ α) : List α := kept.entries.map Prod.snd

def top (size : Nat) (items : List α) : List α :=
  (ranked score (values (items.foldl (keep key score) .empty))).take size

/-- What holds of the items kept. -/
structure Kept (items : List α) (kept : Dict κ α) : Prop where
  under : ∀ name item, kept.get? name = some item → key item = name
  given : ∀ name item, kept.get? name = some item → item ∈ items
  best : ∀ item ∈ items, ∃ best, kept.get? (key item) = some best ∧ score item ≤ score best

section Keep

variable {key : α → κ} {score : α → σ} {items : List α} {kept : Dict κ α}

theorem Kept.begin : Kept key score [] (Dict.empty : Dict κ α) where
  under _ _ found := by simp at found
  given _ _ found := by simp at found
  best _ member := by simp at member

theorem Kept.replace (holds : Kept key score items kept) (item : α)
    (better : ∀ old, kept.get? (key item) = some old → score old ≤ score item) :
    Kept key score (items ++ [item]) (kept.set (key item) item) where
  under name stored found := by
    rw [Dict.get?_set] at found
    split at found
    · rename_i same
      rw [← Option.some.inj found]
      exact same
    · exact holds.under name stored found
  given name stored found := by
    rw [Dict.get?_set] at found
    split at found
    · rw [← Option.some.inj found]
      exact List.mem_append_right _ (List.mem_singleton_self item)
    · exact List.mem_append_left _ (holds.given name stored found)
  best other member := by
    rw [Dict.get?_set]
    rcases List.mem_append.mp member with earlier | last
    · obtain ⟨old, found, lower⟩ := holds.best other earlier
      split
      · rename_i same
        rw [← same] at found
        exact ⟨item, rfl, lower.trans (better old found)⟩
      · exact ⟨old, found, lower⟩
    · rw [List.mem_singleton.mp last, if_pos rfl]
      exact ⟨item, rfl, le_refl _⟩

theorem Kept.step (holds : Kept key score items kept) (item : α) :
    Kept key score (items ++ [item]) (keep key score kept item) := by
  unfold keep
  cases found : kept.get? (key item) with
  | none =>
    apply holds.replace item
    intro old there
    rw [found] at there
    cases there
  | some best =>
    dsimp only
    split
    · rename_i better
      apply holds.replace item
      intro old there
      rw [found] at there
      rw [← Option.some.inj there]
      exact better.le
    · rename_i worse
      refine ⟨holds.under, fun name stored there =>
        List.mem_append_left _ (holds.given name stored there), ?_⟩
      intro other member
      rcases List.mem_append.mp member with earlier | last
      · exact holds.best other earlier
      · rw [List.mem_singleton.mp last]
        exact ⟨best, found, not_lt.mp worse⟩

variable (key score) in
theorem kept_fold (items : List α) : Kept key score items (items.foldl (keep key score) .empty) := by
  induction items using List.reverseRecOn with
  | nil => exact Kept.begin
  | append_singleton before item ih =>
    rw [List.foldl_append]
    exact ih.step item

theorem Kept.mem_values {item : α} (holds : Kept key score items kept) :
    item ∈ values kept ↔ kept.get? (key item) = some item := by
  constructor
  · intro member
    obtain ⟨entry, there, rfl⟩ := List.mem_map.mp member
    have found := Dict.mem_entries_iff.mp there
    rw [holds.under _ _ found]
    exact found
  · intro found
    exact List.mem_map.mpr ⟨(key item, item), Dict.mem_entries_iff.mpr found, rfl⟩

theorem Kept.values_key (holds : Kept key score items kept) : (values kept).map key = kept.keys := by
  rw [values, List.map_map]
  apply List.map_congr_left
  intro entry member
  exact holds.under _ _ (Dict.mem_entries_iff.mp member)

theorem Kept.mem_keys {name : κ} (holds : Kept key score items kept) :
    name ∈ kept.keys ↔ name ∈ items.map key := by
  rw [List.mem_map]
  constructor
  · intro member
    obtain ⟨item, found⟩ := Dict.exists_of_mem_keys member
    exact ⟨item, holds.given _ _ found, holds.under _ _ found⟩
  · rintro ⟨item, member, rfl⟩
    obtain ⟨best, found, _⟩ := holds.best item member
    exact Dict.mem_keys_of_get? found

theorem Kept.highest (holds : Kept key score items kept) {best item : α}
    (stored : best ∈ values kept) (member : item ∈ items) (same : key item = key best) :
    score item ≤ score best := by
  obtain ⟨found_best, found, lower⟩ := holds.best item member
  rw [same, holds.mem_values.mp stored] at found
  rw [Option.some.inj found]
  exact lower

end Keep

/-- The best of the items: no key twice, as many as there are keys and places, best first, each the
best of its key, and none left out that is better than one of them. -/
structure Top (size : Nat) (items kept : List α) : Prop where
  distinct : (kept.map key).Nodup
  length : kept.length = min size (items.map key).dedup.length
  sorted : kept.Pairwise (fun first second => score second ≤ score first)
  given : ∀ item ∈ kept, item ∈ items
  best : ∀ item ∈ kept, ∀ other ∈ items, key other = key item → score other ≤ score item
  dropped : ∀ other ∈ items, key other ∉ kept.map key → ∀ item ∈ kept, score other ≤ score item

/-- Two choices that differ in items of the same score only. -/
structure UpToTies (first second : List α) : Prop where
  scores : first.map score = second.map score
  swapped : ∀ item ∈ first, key item ∉ second.map key →
    ∃ other ∈ second, key other ∉ first.map key ∧ score other = score item

section Top

variable {key : α → κ} {score : α → σ} {items others : List α} {size : Nat}

variable (score) in
theorem ranked_perm (items : List α) : (ranked score items).Perm items := List.mergeSort_perm _ _

variable (score) in
theorem ranked_sorted (items : List α) :
    (ranked score items).Pairwise (fun first second => score second ≤ score first) := by
  refine (@List.pairwise_mergeSort _ (fun first second => decide (score second ≤ score first))
    ?_ ?_ items).imp of_decide_eq_true
  · intro first second third above below
    exact decide_eq_true ((of_decide_eq_true below).trans (of_decide_eq_true above))
  · intro first second
    rcases le_total (score second) (score first) with lower | higher
    · simp [lower]
    · simp [higher]

theorem mem_top {item : α} (member : item ∈ top key score size items) :
    item ∈ values (items.foldl (keep key score) .empty) :=
  (ranked_perm score _).mem_iff.mp (List.mem_of_mem_take member)

theorem top_ranked (size : Nat) (items : List α) : Top key score size items (top key score size items) := by
  have holds := kept_fold key score items
  have perm := ranked_perm score (values (items.foldl (keep key score) .empty))
  have keys := (perm.map key).trans (List.Perm.of_eq holds.values_key)
  constructor
  · rw [top, List.map_take]
    exact (keys.nodup_iff.mpr (Dict.keys_nodup _)).sublist (List.take_sublist _ _)
  · have whole : (values (items.foldl (keep key score) .empty)).length =
        (items.map key).dedup.length := by
      rw [← List.length_map key, holds.values_key]
      refine ((List.perm_ext_iff_of_nodup (Dict.keys_nodup _) (List.nodup_dedup _)).mpr ?_).length_eq
      intro name
      rw [holds.mem_keys, List.mem_dedup]
    rw [top, List.length_take, perm.length_eq, whole]
  · exact (ranked_sorted score _).sublist (List.take_sublist _ _)
  · intro item member
    exact holds.given _ _ (holds.mem_values.mp (mem_top member))
  · intro item member other there same
    exact holds.highest (mem_top member) there same
  · intro other there missing item member
    obtain ⟨best, found, lower⟩ := holds.best other there
    have of_best := holds.under _ _ found
    rw [← of_best] at found missing
    -- the best item of the key stands in the list, but behind the cut
    have listed : best ∈ ranked score (values (items.foldl (keep key score) .empty)) :=
      perm.mem_iff.mpr (holds.mem_values.mpr found)
    rw [← List.take_append_drop size (ranked score _)] at listed
    rcases List.mem_append.mp listed with before | behind
    · exact absurd (List.mem_map_of_mem before) missing
    · have sorted := ranked_sorted score (values (items.foldl (keep key score) .empty))
      rw [← List.take_append_drop size (ranked score _)] at sorted
      exact lower.trans ((List.pairwise_append.mp sorted).2.2 item member best behind)

variable (key score) in
theorem scores_perm (same : ∀ item, item ∈ items ↔ item ∈ others) :
    ((values (items.foldl (keep key score) .empty)).map score).Perm
      ((values (others.foldl (keep key score) .empty)).map score) := by
  -- each key with the score of its best item
  let paired := fun (kept : Dict κ α) => (values kept).map (fun item => (key item, score item))
  have distinct : ∀ items : List α, (paired (items.foldl (keep key score) .empty)).Nodup := by
    intro items
    refine List.Nodup.of_map Prod.fst ?_
    have keys : (paired (items.foldl (keep key score) .empty)).map Prod.fst =
        (values (items.foldl (keep key score) .empty)).map key := by
      simp [paired]
    rw [keys, (kept_fold key score items).values_key]
    exact Dict.keys_nodup _
  have half : ∀ items others : List α, (∀ item, item ∈ items ↔ item ∈ others) → ∀ pair,
      pair ∈ paired (items.foldl (keep key score) .empty) →
        pair ∈ paired (others.foldl (keep key score) .empty) := by
    intro items others same pair member
    have first := kept_fold key score items
    have second := kept_fold key score others
    obtain ⟨item, stored, rfl⟩ := List.mem_map.mp member
    have given := first.given _ _ (first.mem_values.mp stored)
    obtain ⟨other, found, lower⟩ := second.best item ((same item).mp given)
    have of_other := second.under _ _ found
    rw [← of_other] at found
    have higher := first.highest stored
      ((same other).mpr (second.given _ _ found)) of_other
    refine List.mem_map.mpr ⟨other, second.mem_values.mpr found, ?_⟩
    rw [of_other, le_antisymm higher lower]
  have perm := (List.perm_ext_iff_of_nodup (distinct items) (distinct others)).mpr (fun pair =>
    ⟨half items others same pair, half others items (fun item => (same item).symm) pair⟩)
  simpa [paired, Function.comp_def] using perm.map Prod.snd

variable (key score) in
theorem top_scores (same : ∀ item, item ∈ items ↔ item ∈ others) (size : Nat) :
    (top key score size items).map score = (top key score size others).map score := by
  have sorted : ∀ items : List α,
      ((ranked score items).map score).Pairwise (fun first second => second ≤ first) :=
    fun items => List.pairwise_map.mpr (ranked_sorted score items)
  have perm := ((ranked_perm score _).map score).trans
    ((scores_perm key score same).trans
      ((ranked_perm score _).map score).symm)
  have equal := List.Perm.eq_of_pairwise (fun _ _ _ _ above below => le_antisymm below above)
    (sorted _) (sorted _) perm
  rw [top, top, List.map_take, List.map_take, equal]

theorem exists_unshared {first second : List α} (distinct : (second.map key).Nodup)
    (length : first.length = second.length) {item : α} (member : item ∈ first)
    (missing : key item ∉ second.map key) : ∃ other ∈ second, key other ∉ first.map key := by
  by_contra shared
  push Not at shared
  have inside : second.map key ⊆ (first.map key).erase (key item) := by
    intro name there
    obtain ⟨other, listed, rfl⟩ := List.mem_map.mp there
    have different : key other ≠ key item := by
      intro same
      rw [same] at there
      exact missing there
    exact (List.mem_erase_of_ne different).mpr (shared other listed)
  have shorter := (distinct.subperm inside).length_le
  rw [List.length_erase_of_mem (List.mem_map_of_mem member), List.length_map, List.length_map] at shorter
  have some_item := List.length_pos_of_mem member
  omega

theorem Top.swapped {first second : List α} (top : Top key score size items first)
    (other_top : Top key score size others second) (same : ∀ item, item ∈ items ↔ item ∈ others)
    (length : first.length = second.length) {item : α} (member : item ∈ first)
    (missing : key item ∉ second.map key) :
    ∃ other ∈ second, key other ∉ first.map key ∧ score other = score item := by
  obtain ⟨other, listed, absent⟩ := exists_unshared other_top.distinct length member missing
  -- each was dropped where the other one was kept
  have lower := top.dropped other ((same other).mpr (other_top.given other listed)) absent item member
  have higher := other_top.dropped item ((same item).mp (top.given item member)) missing other listed
  exact ⟨other, listed, absent, le_antisymm lower higher⟩

theorem top_upToTies (same : ∀ item, item ∈ items ↔ item ∈ others) (size : Nat) :
    UpToTies key score (top key score size items) (top key score size others) where
  scores := top_scores key score same size
  swapped := by
    intro item member missing
    have length := congrArg List.length (top_scores key score same size)
    rw [List.length_map, List.length_map] at length
    exact (top_ranked size items).swapped (top_ranked size others) same length member missing

end Top

end OpenWebui.Ranking
