import Mathlib.Data.List.Basic
import Mathlib.Data.List.Forall2
import OpenWebui.Base.Json

/-! Steps that may fail, made for each item of a list in order. -/

namespace OpenWebui.Sequence

variable {ε α β : Type}

theorem mapM_eq_ok {step : α → Except ε β} {items : List α} {results : List β} :
    items.mapM step = .ok results ↔
      List.Forall₂ (fun item result => step item = .ok result) items results := by
  induction items generalizing results with
  | nil =>
    rw [List.forall₂_nil_left_iff, List.mapM_nil]
    exact ⟨fun same => (Except.ok.inj same).symm, fun same => congrArg Except.ok same.symm⟩
  | cons item rest ih =>
    rw [List.mapM_cons, bind_eq_ok, List.forall₂_cons_left_iff]
    constructor
    · rintro ⟨result, done, later⟩
      obtain ⟨others, finished, same⟩ := bind_eq_ok.mp later
      exact ⟨result, others, done, ih.mp finished, (Except.ok.inj same).symm⟩
    · rintro ⟨result, others, done, finished, rfl⟩
      exact ⟨result, done, bind_eq_ok.mpr ⟨others, ih.mpr finished, rfl⟩⟩

theorem bind_goes_through {first : Except ε α} {rest : α → Except ε β}
    (begins : ∃ middle, first = .ok middle)
    (goes : ∀ middle, first = .ok middle → ∃ result, rest middle = .ok result) :
    ∃ result, (first >>= rest) = .ok result := by
  obtain ⟨middle, reached⟩ := begins
  obtain ⟨result, done⟩ := goes middle reached
  exact ⟨result, by rw [reached]; exact done⟩

theorem mapM_goes_through {step : α → Except ε β} {items : List α}
    (each : ∀ item ∈ items, ∃ result, step item = .ok result) :
    ∃ results, items.mapM step = .ok results := by
  induction items with
  | nil => exact ⟨[], rfl⟩
  | cons item rest ih =>
    obtain ⟨result, done⟩ := each item (by simp)
    obtain ⟨others, finished⟩ := ih (fun other member => each other (by simp [member]))
    exact ⟨result :: others, mapM_eq_ok.mpr (.cons done (mapM_eq_ok.mp finished))⟩

theorem foldlM_goes_through {step : β → α → Except ε β} {items : List α}
    (each : ∀ item ∈ items, ∀ state, ∃ next, step state item = .ok next) (start : β) :
    ∃ last, items.foldlM step start = .ok last := by
  induction items generalizing start with
  | nil => exact ⟨start, rfl⟩
  | cons item rest ih =>
    obtain ⟨next, done⟩ := each item (by simp) start
    obtain ⟨last, finished⟩ := ih (fun other member => each other (by simp [member])) next
    exact ⟨last, by
      rw [List.foldlM_cons]
      exact bind_eq_ok.mpr ⟨next, done, finished⟩⟩

theorem foldlM_each {step : β → α → Except ε β} {items : List α} {start last : β}
    (finished : items.foldlM step start = .ok last) :
    ∀ item ∈ items, ∃ state next, step state item = .ok next := by
  induction items generalizing start with
  | nil => exact fun item member => absurd member List.not_mem_nil
  | cons item rest ih =>
    rw [List.foldlM_cons] at finished
    obtain ⟨next, done, later⟩ := bind_eq_ok.mp finished
    intro other member
    rcases List.mem_cons.mp member with rfl | member
    · exact ⟨start, next, done⟩
    · exact ih later other member

theorem exists_right {R : α → β → Prop} {items : List α} {results : List β}
    (paired : List.Forall₂ R items results) {item : α} (member : item ∈ items) :
    ∃ result ∈ results, R item result := by
  induction paired with
  | nil => exact absurd member List.not_mem_nil
  | cons related rest ih =>
    rcases List.mem_cons.mp member with rfl | later
    · exact ⟨_, List.mem_cons_self, related⟩
    · obtain ⟨result, there, same⟩ := ih later
      exact ⟨result, List.mem_cons_of_mem _ there, same⟩

theorem exists_left {R : α → β → Prop} {items : List α} {results : List β}
    (paired : List.Forall₂ R items results) {result : β} (member : result ∈ results) :
    ∃ item ∈ items, R item result :=
  exists_right paired.flip member

end OpenWebui.Sequence

namespace OpenWebui.Guarded

universe u v w

variable {α : Type u} {σ : Type v} {ε : Type w}

def turn (test : α → Except ε Bool) (act : σ → α → σ) (state : σ) (item : α) : Except ε σ :=
  (test item).map (fun passes => if passes then act state item else state)

def chosen (test : α → Except ε Bool) (item : α) : Bool := (test item).toOption.getD false

theorem foldlM_turn {test : α → Except ε Bool} (act : σ → α → σ) {items : List α}
    (answered : ∀ item ∈ items, ∃ passes, test item = .ok passes) (state : σ) :
    items.foldlM (turn test act) state = .ok ((items.filter (chosen test)).foldl act state) := by
  induction items generalizing state with
  | nil => rfl
  | cons item rest ih =>
    obtain ⟨passes, answer⟩ := answered item List.mem_cons_self
    have later := ih (fun other member => answered other (List.mem_cons_of_mem item member))
    rw [List.foldlM_cons, turn, answer]
    have same : chosen test item = passes := by
      rw [chosen, answer]
      rfl
    cases passes with
    | true =>
      rw [List.filter_cons_of_pos same]
      exact later _
    | false =>
      rw [List.filter_cons_of_neg (by rw [same]; exact Bool.false_ne_true)]
      exact later _

theorem foldlM_turn_idle {test : α → Except ε Bool} {act : σ → α → σ} {items : List α}
    (idle : ∀ item ∈ items, test item = .ok false) (state : σ) :
    items.foldlM (turn test act) state = .ok state := by
  rw [foldlM_turn act (fun item member => ⟨false, idle item member⟩)]
  have none_chosen : items.filter (chosen test) = [] := by
    rw [List.filter_eq_nil_iff]
    intro item member
    rw [chosen, idle item member]
    exact Bool.false_ne_true
  rw [none_chosen]
  rfl

theorem answered_of_foldlM {test : α → Except ε Bool} {act : σ → α → σ} {items : List α}
    {state final : σ} (done : items.foldlM (turn test act) state = .ok final) :
    ∀ item ∈ items, ∃ passes, test item = .ok passes := by
  induction items generalizing state with
  | nil => simp
  | cons item rest ih =>
    rw [List.foldlM_cons, turn] at done
    cases answer : test item with
    | error raised =>
      rw [answer] at done
      cases done
    | ok passes =>
      rw [answer] at done
      intro other member
      rcases List.mem_cons.mp member with rfl | later
      · exact ⟨passes, answer⟩
      · exact ih done other later

end OpenWebui.Guarded
