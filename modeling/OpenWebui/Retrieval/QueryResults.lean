import OpenWebui.Base.Json
import OpenWebui.Base.Ranking

/-! `merge_and_sort_query_results`: of the documents that several queries found the best ones. -/

namespace OpenWebui.Retrieval

universe u

/-- The metadata of a document that was found, with the hash that was stored for its text. -/
structure HitMetadata where
  _chunk_hash : Option String
  rest : Fields

/-- What a query found. The lists have an inner list for each query text; a document may be no
text, and one may have no metadata. -/
structure QueryResult (σ : Type u) where
  distances : List (List σ)
  documents : List (List (Option String))
  metadatas : List (List (Option HitMetadata))

structure Hit (σ : Type u) where
  distance : σ
  document : String
  metadata : Option HitMetadata

section Merge

variable {σ : Type u} (content_hash : String → String)

/-- `(metadata or {}).get(CHUNK_HASH_KEY) or _content_hash(document)`. -/
def Hit.doc_hash (hit : Hit σ) : String :=
  ((hit.metadata.bind HitMetadata._chunk_hash).filter (fun hash => decide (hash ≠ ""))).getD
    (content_hash hit.document)

def QueryResult.hits (data : QueryResult σ) : List (Hit σ) :=
  match data.distances, data.documents, data.metadatas with
  | distances :: _, documents :: _, metadatas :: _ =>
    (distances.zip (documents.zip metadatas)).filterMap (fun found =>
      found.2.1.map (fun document => ⟨found.1, document, found.2.2⟩))
  | _, _, _ => []

def found (query_results : List (QueryResult σ)) : List (Hit σ) := query_results.flatMap QueryResult.hits

theorem found_perm {query_results other : List (QueryResult σ)} (perm : query_results.Perm other)
    (hit : Hit σ) : hit ∈ found query_results ↔ hit ∈ found other := (perm.flatMap_right _).mem_iff

def returned (hits : List (Hit σ)) : QueryResult σ where
  distances := [hits.map Hit.distance]
  documents := [hits.map (fun hit => some hit.document)]
  metadatas := [hits.map Hit.metadata]

variable [LinearOrder σ]

def merge_and_sort_query_results (query_results : List (QueryResult σ)) (k : Nat) :
    Except PyError (QueryResult σ) :=
  let combined := (found query_results).foldl (Ranking.keep (Hit.doc_hash content_hash) Hit.distance)
    .empty
  let sorted := Ranking.ranked Hit.distance (Ranking.values combined)
  if sorted.isEmpty then .ok (returned [])
  -- no rows can be unpacked into three lists
  else if (sorted.take k).isEmpty then .error .valueError
  else .ok (returned (sorted.take k))

/-- The best documents are returned, the same ones up to ties in whatever order the results come. -/
def BestReturned (query_results : List (QueryResult σ)) (k : Nat) : Prop :=
  ∃ kept, merge_and_sort_query_results content_hash query_results k = .ok (returned kept) ∧
    Ranking.Top (Hit.doc_hash content_hash) Hit.distance k (found query_results) kept ∧
    ∀ other, query_results.Perm other → ∃ others,
      merge_and_sort_query_results content_hash other k = .ok (returned others) ∧
        Ranking.UpToTies (Hit.doc_hash content_hash) Hit.distance kept others

variable {content_hash} {query_results : List (QueryResult σ)} {k : Nat}

theorem merge_ok (served : k = 0 → found query_results = []) :
    merge_and_sort_query_results content_hash query_results k =
      .ok (returned (Ranking.top (Hit.doc_hash content_hash) Hit.distance k (found query_results))) := by
  simp only [merge_and_sort_query_results, Ranking.top]
  split
  · rename_i empty
    rw [List.isEmpty_iff.mp empty, List.take_nil]
  · rename_i present
    refine if_neg (fun cut => ?_)
    rw [List.isEmpty_iff, List.take_eq_nil_iff] at cut
    rcases cut with zero | empty
    · rw [served zero] at present
      exact present (by simp [Ranking.ranked, Ranking.values, Dict.empty])
    · exact present (List.isEmpty_iff.mpr empty)

theorem merge_none (some_found : found query_results ≠ []) :
    merge_and_sort_query_results content_hash query_results 0 = .error .valueError := by
  obtain ⟨hit, member⟩ := List.exists_mem_of_ne_nil _ some_found
  have holds := Ranking.kept_fold (Hit.doc_hash content_hash) Hit.distance (found query_results)
  obtain ⟨best, stored, _⟩ := holds.best hit member
  rw [← holds.under _ _ stored] at stored
  have present := (Ranking.ranked_perm Hit.distance _).mem_iff.mpr
    (holds.mem_values.mpr stored)
  rw [merge_and_sort_query_results, if_neg, if_pos]
  · rfl
  · rw [List.isEmpty_iff]
    exact List.ne_nil_of_mem present

/-- The best documents are returned, unless there is no place for those that were found. -/
theorem best_returned_iff (content_hash : String → String) (query_results : List (QueryResult σ))
    (k : Nat) :
    BestReturned content_hash query_results k ↔
      (k = 0 → ∀ data ∈ query_results, data.hits = []) := by
  have none_found : found query_results = [] ↔ ∀ data ∈ query_results, data.hits = [] :=
    List.flatMap_eq_nil_iff
  rw [← none_found]
  constructor
  · rintro ⟨kept, merged, -, -⟩ rfl
    by_contra some_found
    rw [merge_none some_found] at merged
    cases merged
  · intro served
    refine ⟨_, merge_ok served, Ranking.top_ranked k _, ?_⟩
    intro other perm
    refine ⟨_, merge_ok ?_, Ranking.top_upToTies (found_perm perm) k⟩
    intro zero
    rw [List.eq_nil_iff_forall_not_mem]
    intro hit member
    have before := (found_perm perm hit).mpr member
    rw [served zero] at before
    cases before

end Merge

def twoResults : List (QueryResult Nat) :=
  [⟨[[3, 5]], [[some "a", some "b"]], [[none, none]]⟩, ⟨[[7]], [[some "a"]], [[none]]⟩]

/-- Asked for no document, the function fails on what was found. -/
theorem none_asked_fails : ¬ ∀ (query_results : List (QueryResult Nat)) (k : Nat),
    BestReturned id query_results k := by
  intro best
  obtain ⟨kept, merged, -⟩ := best twoResults 0
  have some_found : found twoResults ≠ [] := List.cons_ne_nil _ _
  rw [merge_none some_found] at merged
  cases merged

end OpenWebui.Retrieval
