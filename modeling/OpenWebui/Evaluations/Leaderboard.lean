import Mathlib.Algebra.Order.Field.Basic
import Mathlib.Analysis.SpecialFunctions.Pow.Real
import OpenWebui.Base.Runs
import OpenWebui.Base.Text
import OpenWebui.Base.Totals

/-! `_calculate_elo`: the ratings of models from the feedback on their answers. -/

namespace OpenWebui.Evaluations

structure FeedbackData where
  model_id : Option String
  rating : Option Json
  sibling_model_ids : Option (List String)

structure Feedback where
  id : String
  data : Option FeedbackData

structure Stats (R : Type) where
  rating : R
  won : Nat
  lost : Nat

/-- One round of the inner loop: the model that was rated, one of its opponents, whether it won, and
the weight of the feedback. -/
structure Comparison (R : Type) where
  winner_id : String
  opponent_id : String
  won : Bool
  weight : R

variable {R : Type} [Field R]

def K_FACTOR : R := 32

abbrev ModelStats (R : Type) := Dict String (Stats R)

section

variable (expected : ModelStats R → String → String → R)

def get_or_create_stats (model_stats : ModelStats R) (model_id : String) : ModelStats R :=
  if model_id ∈ model_stats.keys then model_stats else model_stats.set model_id ⟨1000, 0, 0⟩

def addRating (amount : R) (stats : Stats R) : Stats R := { stats with rating := stats.rating + amount }

def addWin (stats : Stats R) : Stats R := { stats with won := stats.won + 1 }

def addLoss (stats : Stats R) : Stats R := { stats with lost := stats.lost + 1 }

def players (model_stats : ModelStats R) (comparison : Comparison R) : ModelStats R :=
  get_or_create_stats (get_or_create_stats model_stats comparison.winner_id) comparison.opponent_id

def compare (model_stats : ModelStats R) (comparison : Comparison R) : ModelStats R :=
  let model_stats := players model_stats comparison
  let expected := expected model_stats comparison.winner_id comparison.opponent_id
  let model_stats := model_stats.modify comparison.winner_id
    (addRating (K_FACTOR * ((if comparison.won then 1 else 0) - expected) * comparison.weight))
  let model_stats := model_stats.modify comparison.opponent_id
    (addRating (K_FACTOR * ((if comparison.won then 0 else 1) - (1 - expected)) * comparison.weight))
  if comparison.won then
    (model_stats.modify comparison.winner_id addWin).modify comparison.opponent_id addLoss
  else (model_stats.modify comparison.winner_id addLoss).modify comparison.opponent_id addWin

def comparisons (formatting : Formatting) (similarities : Option (Dict String R)) (feedback : Feedback) :
    List (Comparison R) :=
  let data := feedback.data.getD ⟨none, none, none⟩
  let rating_value := formatting.text (data.rating.getD (.str ""))
  match data.model_id with
  | none => []
  | some winner_id =>
    if winner_id = "" ∨ rating_value ∉ ["1", "-1"] then []
    else
      let weight := match similarities with
        | some similarities =>
          if similarities.entries.isEmpty then 1 else (similarities.get? feedback.id).getD 1
        | none => 1
      (data.sibling_model_ids.getD []).map (fun opponent_id =>
        ⟨winner_id, opponent_id, decide (rating_value = "1"), weight⟩)

def _calculate_elo (formatting : Formatting) (feedbacks : List Feedback)
    (similarities : Option (Dict String R)) : ModelStats R :=
  feedbacks.foldl (fun model_stats feedback =>
    (comparisons formatting similarities feedback).foldl (compare expected) model_stats) .empty

def allComparisons (formatting : Formatting) (feedbacks : List Feedback)
    (similarities : Option (Dict String R)) : List (Comparison R) :=
  feedbacks.flatMap (comparisons formatting similarities)

theorem _calculate_elo_eq (formatting : Formatting) (feedbacks : List Feedback)
    (similarities : Option (Dict String R)) :
    _calculate_elo expected formatting feedbacks similarities =
      (allComparisons formatting feedbacks similarities).foldl (compare expected) .empty := by
  rw [allComparisons, List.foldl_flatMap]
  rfl

def ratingOf (model_stats : ModelStats R) (model_id : String) : R :=
  ((model_stats.get? model_id).map Stats.rating).getD 1000

def Comparison.victor (comparison : Comparison R) : String :=
  if comparison.won then comparison.winner_id else comparison.opponent_id

def gain (model_stats : ModelStats R) (comparison : Comparison R) : R :=
  let model_stats := players model_stats comparison
  K_FACTOR * ((if comparison.won then 1 else 0) -
    expected model_stats comparison.winner_id comparison.opponent_id) * comparison.weight

end

section

variable {expected : ModelStats R → String → String → R}

@[simp] theorem ratingOf_get_or_create (model_stats : ModelStats R) (created model_id : String) :
    ratingOf (get_or_create_stats model_stats created) model_id = ratingOf model_stats model_id := by
  unfold get_or_create_stats ratingOf
  split
  · rfl
  · rename_i fresh
    rw [Dict.get?_set]
    split
    · rename_i same
      subst same
      rw [Dict.get?_eq_none.mpr fresh]
      rfl
    · rfl

theorem mem_get_or_create (model_stats : ModelStats R) {created model_id : String} :
    model_id ∈ (get_or_create_stats model_stats created).keys ↔
      model_id = created ∨ model_id ∈ model_stats.keys := by
  unfold get_or_create_stats
  split
  · rename_i present
    refine ⟨Or.inr, fun either => ?_⟩
    rcases either with rfl | listed
    · exact present
    · exact listed
  · exact Dict.mem_keys_set

theorem ratingOf_addRating {model_stats : ModelStats R} {key : String} (present : key ∈ model_stats.keys)
    (amount : R) (model_id : String) :
    ratingOf (model_stats.modify key (addRating amount)) model_id =
      ratingOf model_stats model_id + if key = model_id then amount else 0 := by
  unfold ratingOf
  rw [Dict.get?_modify]
  by_cases same : key = model_id
  · subst same
    obtain ⟨stats, found⟩ := Dict.exists_of_mem_keys present
    simp [found, addRating]
  · simp [same]

theorem ratingOf_modify (model_stats : ModelStats R) (key : String) {update : Stats R → Stats R}
    (same_rating : ∀ stats, (update stats).rating = stats.rating) (model_id : String) :
    ratingOf (model_stats.modify key update) model_id = ratingOf model_stats model_id := by
  unfold ratingOf
  rw [Dict.get?_modify]
  split
  · rw [Option.map_map]
    congr 2
    exact funext same_rating
  · rfl

theorem players_present (model_stats : ModelStats R) (comparison : Comparison R) :
    comparison.winner_id ∈ (players model_stats comparison).keys ∧
      comparison.opponent_id ∈ (players model_stats comparison).keys := by
  simp [players, mem_get_or_create]

theorem opposite_gain (won : Bool) (expected weight : R) :
    K_FACTOR * ((if won then 0 else 1) - (1 - expected)) * weight =
      -(K_FACTOR * ((if won then 1 else 0) - expected) * weight) := by
  cases won with
  | true => rw [if_pos rfl, if_pos rfl]; ring
  | false => rw [if_neg Bool.false_ne_true, if_neg Bool.false_ne_true]; ring

theorem compare_eq (model_stats : ModelStats R) (comparison : Comparison R) :
    compare expected model_stats comparison =
      (((((players model_stats comparison).modify comparison.winner_id
          (addRating (gain expected model_stats comparison))).modify comparison.opponent_id
          (addRating (-gain expected model_stats comparison))).modify comparison.winner_id
          (if comparison.won then addWin else addLoss)).modify comparison.opponent_id
          (if comparison.won then addLoss else addWin)) := by
  unfold compare gain
  dsimp only
  rw [opposite_gain]
  cases comparison.won <;> rfl

omit [Field R] in
theorem rating_counted (won : Bool) (stats : Stats R) :
    ((if won then addWin else addLoss) stats).rating = stats.rating ∧
      ((if won then addLoss else addWin) stats).rating = stats.rating := by
  cases won <;> exact ⟨rfl, rfl⟩

omit [Field R] in
theorem games_counted (won : Bool) (stats : Stats R) :
    ((if won then addWin else addLoss) stats).won = stats.won + (if won then 1 else 0) ∧
      ((if won then addLoss else addWin) stats).won = stats.won + (if won then 0 else 1) ∧
      ((if won then addWin else addLoss) stats).lost = stats.lost + (if won then 0 else 1) ∧
      ((if won then addLoss else addWin) stats).lost = stats.lost + (if won then 1 else 0) := by
  cases won <;> exact ⟨rfl, rfl, rfl, rfl⟩

theorem ratingOf_compare (model_stats : ModelStats R) (comparison : Comparison R) (model_id : String) :
    ratingOf (compare expected model_stats comparison) model_id =
      ratingOf model_stats model_id +
        (if comparison.winner_id = model_id then gain expected model_stats comparison else 0) +
        (if comparison.opponent_id = model_id then -gain expected model_stats comparison else 0) := by
  obtain ⟨winner, opponent⟩ := players_present model_stats comparison
  rw [compare_eq, ratingOf_modify _ _ (fun stats => (rating_counted comparison.won stats).2),
    ratingOf_modify _ _ (fun stats => (rating_counted comparison.won stats).1),
    ratingOf_addRating (by rwa [Dict.keys_modify]), ratingOf_addRating winner, players,
    ratingOf_get_or_create, ratingOf_get_or_create]

/-- The ratings are 1000 each on the whole, and as many games are won as lost. -/
structure Balanced (model_stats : ModelStats R) : Prop where
  rating : model_stats.total Stats.rating = 1000 * model_stats.keys.length
  games : model_stats.total Stats.won = model_stats.total Stats.lost

theorem balanced_get_or_create {model_stats : ModelStats R} (balanced : Balanced model_stats)
    (model_id : String) : Balanced (get_or_create_stats model_stats model_id) := by
  unfold get_or_create_stats
  split
  · exact balanced
  · rename_i fresh
    constructor
    · rw [Dict.total_set_of_fresh fresh, balanced.rating, Dict.keys_set_of_fresh fresh,
        List.length_append, List.length_singleton]
      push_cast
      ring
    · rw [Dict.total_set_of_fresh fresh, Dict.total_set_of_fresh fresh, balanced.games]

omit [Field R] in
theorem total_modify_eq {M : Type} [AddCommMonoid M] [IsCancelAdd M] {model_stats : ModelStats R}
    {key : String} (present : key ∈ model_stats.keys) {update : Stats R → Stats R} {measure : Stats R → M}
    {amount : M} (added : ∀ stats, measure (update stats) = measure stats + amount) :
    (model_stats.modify key update).total measure = model_stats.total measure + amount := by
  obtain ⟨stats, found⟩ := Dict.exists_of_mem_keys present
  have moved := Dict.total_modify found update measure
  rw [added, add_comm (measure stats), ← add_assoc] at moved
  exact add_right_cancel moved

theorem balanced_compare {model_stats : ModelStats R} (balanced : Balanced model_stats)
    (comparison : Comparison R) : Balanced (compare expected model_stats comparison) := by
  obtain ⟨winner, opponent⟩ := players_present model_stats comparison
  have started : Balanced (players model_stats comparison) :=
    balanced_get_or_create (balanced_get_or_create balanced _) _
  rw [compare_eq]
  constructor
  · rw [total_modify_eq (by simpa using opponent)
        (fun stats => ((rating_counted comparison.won stats).2).trans (add_zero _).symm),
      total_modify_eq (by simpa using winner)
        (fun stats => ((rating_counted comparison.won stats).1).trans (add_zero _).symm),
      total_modify_eq (by simpa using opponent) (fun stats => rfl),
      total_modify_eq winner (fun stats => rfl), started.rating]
    simp only [Dict.keys_modify]
    ring
  · rw [total_modify_eq (by simpa using opponent) (fun stats => (games_counted comparison.won stats).2.1),
      total_modify_eq (by simpa using winner) (fun stats => (games_counted comparison.won stats).1),
      total_modify_eq (by simpa using opponent) (fun stats => (add_zero _).symm),
      total_modify_eq winner (fun stats => (add_zero _).symm),
      total_modify_eq (by simpa using opponent)
        (fun stats => (games_counted comparison.won stats).2.2.2),
      total_modify_eq (by simpa using winner) (fun stats => (games_counted comparison.won stats).2.2.1),
      total_modify_eq (by simpa using opponent) (fun stats => (add_zero _).symm),
      total_modify_eq winner (fun stats => (add_zero _).symm), started.games]
    ring

theorem balanced_run (run : List (Comparison R)) :
    Balanced (run.foldl (compare expected) .empty) := by
  induction run using List.reverseRecOn with
  | nil => exact ⟨by simp, rfl⟩
  | append_singleton earlier comparison ih =>
    rw [List.foldl_append]
    exact balanced_compare ih comparison

end

section

variable [LinearOrder R] [IsStrictOrderedRing R] (expected : ModelStats R → String → String → R)

/-- A comparison changes the two ratings by opposite amounts, and does not lower the winner's. -/
structure Fair (before : ModelStats R) (comparison : Comparison R) : Prop where
  opposite : ratingOf (compare expected before comparison) comparison.winner_id -
      ratingOf before comparison.winner_id =
    -(ratingOf (compare expected before comparison) comparison.opponent_id -
      ratingOf before comparison.opponent_id)
  kept : ratingOf before comparison.victor ≤
    ratingOf (compare expected before comparison) comparison.victor

/-- Every comparison is fair, and on the whole no rating is made or lost. -/
structure Conserves (formatting : Formatting) (feedbacks : List Feedback)
    (similarities : Option (Dict String R)) : Prop where
  fair : Runs.Always (fun earlier comparison =>
      Fair expected (earlier.foldl (compare expected) .empty) comparison)
    (allComparisons formatting feedbacks similarities)
  balanced : Balanced (_calculate_elo expected formatting feedbacks similarities)

/-- The expected score lies strictly between 0 and 1. -/
def Between : Prop :=
  ∀ model_stats winner_id opponent_id, 0 < expected model_stats winner_id opponent_id ∧
    expected model_stats winner_id opponent_id < 1

end

section

variable [LinearOrder R] [IsStrictOrderedRing R] {expected : ModelStats R → String → String → R}

theorem victor_change {before : ModelStats R} {comparison : Comparison R}
    (different : comparison.winner_id ≠ comparison.opponent_id) (between : Between expected) :
    ∃ share : R, 0 < share ∧
      ratingOf (compare expected before comparison) comparison.victor =
        ratingOf before comparison.victor + share * comparison.weight := by
  obtain ⟨above, below⟩ := between (players before comparison) comparison.winner_id
    comparison.opponent_id
  rw [ratingOf_compare, Comparison.victor, gain]
  have factor : (0 : R) < K_FACTOR := by norm_num [K_FACTOR]
  cases comparison.won with
  | true =>
    refine ⟨_, mul_pos factor (sub_pos.mpr below), ?_⟩
    simp only [if_true, if_neg (Ne.symm different)]
    ring
  | false =>
    refine ⟨_, mul_pos factor above, ?_⟩
    simp only [Bool.false_eq_true, if_false, if_neg different, if_true]
    ring

theorem fair_iff {before : ModelStats R} {comparison : Comparison R} (between : Between expected) :
    Fair expected before comparison ↔
      (comparison.winner_id ≠ comparison.opponent_id → 0 ≤ comparison.weight) := by
  constructor
  · intro fair different
    obtain ⟨share, positive, changed⟩ := victor_change different between
    have kept := fair.kept
    rw [changed, le_add_iff_nonneg_right] at kept
    exact nonneg_of_mul_nonneg_right kept positive
  · intro weighed
    by_cases same : comparison.winner_id = comparison.opponent_id
    · have unchanged : ∀ model_id, ratingOf (compare expected before comparison) model_id =
          ratingOf before model_id := by
        intro model_id
        rw [ratingOf_compare, same]
        split <;> ring
      exact ⟨by rw [unchanged, unchanged]; ring, (unchanged _).ge⟩
    · refine ⟨?_, ?_⟩
      · rw [ratingOf_compare, ratingOf_compare, if_pos rfl, if_neg (Ne.symm same), if_neg same,
          if_pos rfl]
        ring
      · obtain ⟨share, positive, changed⟩ := victor_change same between
        rw [changed, le_add_iff_nonneg_right]
        exact mul_nonneg positive.le (weighed same)

/-- The leaderboard conserves rating exactly where no comparison of two models has a negative
weight. -/
theorem conserves_iff (between : Between expected) (formatting : Formatting) (feedbacks : List Feedback)
    (similarities : Option (Dict String R)) :
    Conserves expected formatting feedbacks similarities ↔
      ∀ comparison ∈ allComparisons formatting feedbacks similarities,
        comparison.winner_id ≠ comparison.opponent_id → 0 ≤ comparison.weight := by
  constructor
  · intro conserves comparison counted
    obtain ⟨earlier, later, split⟩ := List.append_of_mem counted
    exact (fair_iff between).mp (conserves.fair earlier comparison later split)
  · intro weighed
    constructor
    · intro earlier comparison later split
      refine (fair_iff between).mpr (weighed comparison ?_)
      rw [split]
      simp
    · rw [_calculate_elo_eq]
      exact balanced_run _

end

/-- `1 / (1 + 10 ** ((opponent['rating'] - winner['rating']) / 400))`. -/
noncomputable def expectedScore (model_stats : ModelStats ℝ) (winner_id opponent_id : String) : ℝ :=
  1 / (1 + (10 : ℝ) ^ ((ratingOf model_stats opponent_id - ratingOf model_stats winner_id) / 400))

theorem expectedScore_between : Between expectedScore := by
  intro model_stats winner_id opponent_id
  have power : 0 < (10 : ℝ) ^
      ((ratingOf model_stats opponent_id - ratingOf model_stats winner_id) / 400) :=
    Real.rpow_pos_of_pos (by norm_num) _
  refine ⟨by unfold expectedScore; positivity, ?_⟩
  rw [expectedScore, div_lt_one (by positivity)]
  linarith

def praised : Feedback := ⟨"f", some ⟨some "a", some (.str "1"), some ["b"]⟩⟩

def plain : Formatting := ⟨fun _ => "", fun _ => ""⟩

theorem praised_conserves : Conserves expectedScore plain [praised] none := by
  refine (conserves_iff expectedScore_between plain [praised] none).mpr ?_
  intro comparison counted _
  obtain rfl : comparison = ⟨"a", "b", true, 1⟩ := by simpa [allComparisons, comparisons, praised,
    Formatting.text] using counted
  exact zero_le_one

noncomputable def unlike : Dict String ℝ := Dict.ofEntries [("f", -1 / 2)]

theorem unlike_lowers : ¬ Conserves expectedScore plain [praised] (some unlike) := by
  intro conserves
  have counted : allComparisons plain [praised] (some unlike) = [] ++ [⟨"a", "b", true, -1 / 2⟩] := by
    rfl
  have weighed := (fair_iff expectedScore_between).mp (conserves.fair [] _ [] counted) (by decide)
  norm_num at weighed

end OpenWebui.Evaluations
