import Mathlib.Data.Set.Finite.List
import OpenWebui.Utils.Branch

/-! When `get_message_list` ends on any map of messages, and what it gives where the messages have
their keys as ids: the line of a message to its root, or around its circle once. -/

namespace OpenWebui.Utils

def asJson (messages : Dict String Fields) : MessagesMap := messages.mapValue (fun _ message => .obj message)

abbrev idOf (message : Fields) : Json := getField message "id"

abbrev parentIdOf (message : Fields) : Json := getField message "parentId"

def above (messages : Dict String Fields) (message : Fields) : Option Fields :=
  match parentIdOf message with
  | .str parent_id => if parent_id = "" then none
    else (messages.get? parent_id).filter (fun parent => !parent.isEmpty)
  | _ => none

def line (messages : Dict String Fields) (start : Fields) : Nat → Option Fields
  | 0 => some start
  | n + 1 => (line messages start n).bind (above messages)

def lineUpTo (messages : Dict String Fields) (start : Fields) : Nat → List Fields
  | 0 => []
  | n + 1 => (line messages start n).toList ++ lineUpTo messages start n

def lineIds (messages : Dict String Fields) (start : Fields) (n : Nat) : List Json :=
  ((lineUpTo messages start n).map idOf).filter (fun id => id ≠ .null)

/-- There is a message at the place, and none before it has its id. -/
def Fresh (messages : Dict String Fields) (start : Fields) (n : Nat) : Prop :=
  ∃ message, line messages start n = some message ∧ (idOf message).hashable = true ∧
    idOf message ∉ lineIds messages start n

section Walk

variable {messages : Dict String Fields} {start message : Fields}

theorem stored_of_above {parent : Fields} (found : above messages message = some parent) :
    parent ≠ [] ∧ ∃ parent_id, parentIdOf message = .str parent_id ∧
      messages.get? parent_id = some parent := by
  unfold above at found
  split at found
  · rename_i parent_id named
    split at found
    · cases found
    · obtain ⟨stored, filled⟩ := Option.filter_eq_some_iff.mp found
      exact ⟨by simpa using filled, parent_id, named, stored⟩
  · cases found

theorem line_succ {n : Nat} (found : line messages start n = some message) :
    line messages start (n + 1) = above messages message := by
  simp [line, found]

theorem filled_line (filled : start ≠ []) {n : Nat} (found : line messages start n = some message) :
    message ≠ [] := by
  cases n with
  | zero => exact Option.some.inj found ▸ filled
  | succ n =>
    obtain ⟨below, _, parent⟩ := Option.bind_eq_some_iff.mp found
    exact (stored_of_above parent).1

theorem truthy_obj_of_filled (filled : message ≠ []) : (Json.obj message).truthy = true := by
  simpa [Json.truthy] using filled

theorem mem_lineUpTo {n : Nat} :
    message ∈ lineUpTo messages start n ↔ ∃ k < n, line messages start k = some message := by
  induction n with
  | zero => simp [lineUpTo]
  | succ n ih =>
    simp only [lineUpTo, List.mem_append, Option.mem_toList, ih]
    constructor
    · rintro (found | ⟨k, earlier, found⟩)
      · exact ⟨n, Nat.lt_succ_self n, found⟩
      · exact ⟨k, Nat.lt_succ_of_lt earlier, found⟩
    · rintro ⟨k, bound, found⟩
      rcases Nat.lt_succ_iff_lt_or_eq.mp bound with earlier | rfl
      · exact .inr ⟨k, earlier, found⟩
      · exact .inl found

theorem mem_lineIds {n : Nat} {id : Json} : id ∈ lineIds messages start n ↔
    id ≠ .null ∧ ∃ k < n, ∃ message, line messages start k = some message ∧ idOf message = id := by
  simp only [lineIds, List.mem_filter, List.mem_map, mem_lineUpTo, decide_eq_true_eq]
  constructor
  · rintro ⟨⟨message, ⟨k, earlier, found⟩, same⟩, present⟩
    exact ⟨present, k, earlier, message, found, same⟩
  · rintro ⟨present, k, earlier, message, found, same⟩
    exact ⟨⟨message, ⟨k, earlier, found⟩, same⟩, present⟩

theorem lineIds_succ {n : Nat} (found : line messages start n = some message) :
    lineIds messages start (n + 1) =
      if idOf message = .null then lineIds messages start n
      else idOf message :: lineIds messages start n := by
  by_cases absent : idOf message = .null <;> simp [lineIds, lineUpTo, found, absent]

/-- A parent that cannot be looked up at all. -/
def Unreadable (message : Fields) : Prop :=
  (parentIdOf message).truthy = true ∧ (parentIdOf message).hashable = false

theorem parentMessage_asJson (messages : Dict String Fields) (message : Fields) :
    (∃ parent, above messages message = some parent ∧ ¬ Unreadable message ∧
        parentMessage (asJson messages) (parentIdOf message) = .ok (.obj parent)) ∨
      above messages message = none ∧ ((¬ Unreadable message ∧ ∃ value, value.truthy = false ∧
          parentMessage (asJson messages) (parentIdOf message) = .ok value) ∨
        (Unreadable message ∧
          parentMessage (asJson messages) (parentIdOf message) = .error .typeError)) := by
  unfold above parentMessage Unreadable
  cases parentIdOf message with
  | str parent_id =>
    by_cases empty : parent_id = ""
    · exact .inr ⟨if_pos empty, .inl ⟨by simp [empty], .null, rfl, by simp [empty]⟩⟩
    · simp only [if_neg empty, Json.truthy_str, Dict.getJson?_str, asJson, Dict.get?_mapValue]
      cases found : messages.get? parent_id with
      | none => exact .inr ⟨rfl, .inl ⟨by simp [Json.hashable], .null, rfl, by simp [empty, Except.map]⟩⟩
      | some parent =>
        cases parent with
        | nil => exact .inr ⟨rfl, .inl ⟨by simp [Json.hashable], .obj [], rfl, by simp [empty, Except.map]⟩⟩
        | cons field rest =>
          exact .inl ⟨_, rfl, by simp [Json.hashable], by simp [empty, Except.map]⟩
  | arr items =>
    cases items with
    | nil => exact .inr ⟨rfl, .inl ⟨by simp, .null, rfl, rfl⟩⟩
    | cons item rest => exact .inr ⟨rfl, .inr ⟨⟨rfl, rfl⟩, rfl⟩⟩
  | obj fields =>
    cases fields with
    | nil => exact .inr ⟨rfl, .inl ⟨by simp, .null, rfl, rfl⟩⟩
    | cons field rest => exact .inr ⟨rfl, .inr ⟨⟨rfl, rfl⟩, rfl⟩⟩
  | _ =>
    refine .inr ⟨rfl, .inl ⟨by simp [Json.hashable], .null, rfl, ?_⟩⟩
    split <;> rfl

/-- What a round of the loop comes to, at a message of the line whose earlier ids are visited. -/
inductive Round (messages : Dict String Fields) (start : Fields) (fuel n : Nat) (message : Fields) :
    Except PyError (List Fields) → Prop where
  | unhashable (bad : (idOf message).hashable = false) :
      Round messages start fuel n message (.error .typeError)
  | visited (seen : idOf message ∈ lineIds messages start n) :
      Round messages start fuel n message (.ok [])
  | unreadable (bad : Unreadable message) (top : line messages start (n + 1) = none) :
      Round messages start fuel n message (.error .typeError)
  | root (fresh : Fresh messages start n) (readable : ¬ Unreadable message)
      (top : line messages start (n + 1) = none) : Round messages start fuel n message (.ok [message])
  | parent (fresh : Fresh messages start n) (readable : ¬ Unreadable message) (parent : Fields)
      (next : line messages start (n + 1) = some parent) :
      Round messages start fuel n message
        ((walkParents (asJson messages) fuel (.obj parent) (lineIds messages start (n + 1))).map
          (message :: ·))

theorem walkParents_falsy (messages_map : MessagesMap) (fuel : Nat) {current : Json}
    (falsy : current.truthy = false) (visited : List Json) :
    walkParents messages_map fuel current visited = .ok [] := by
  cases fuel <;> simp [walkParents, falsy]

theorem round_line (filled : start ≠ []) (fuel : Nat) {n : Nat}
    (found : line messages start n = some message) :
    Round messages start fuel n message
      (walkParents (asJson messages) (fuel + 1) (.obj message) (lineIds messages start n)) := by
  have truthy := truthy_obj_of_filled (filled_line filled found)
  have visited : (if getField message "id" = .null then lineIds messages start n
      else getField message "id" :: lineIds messages start n) = lineIds messages start (n + 1) :=
    (lineIds_succ found).symm
  rw [walkParents, if_pos truthy]
  dsimp only
  rw [visited]
  by_cases hashed : (idOf message).hashable = true
  · by_cases seen : idOf message ∈ lineIds messages start n
    · rw [if_pos hashed, if_pos seen]
      exact .visited seen
    · have fresh : Fresh messages start n := ⟨message, found, hashed, seen⟩
      rw [if_pos hashed, if_neg seen]
      rcases parentMessage_asJson messages message with
        ⟨parent, next, readable, read⟩ | ⟨top, ⟨readable, value, falsy, read⟩ | ⟨bad, read⟩⟩
      · rw [read]
        exact .parent fresh readable parent (line_succ found ▸ next)
      · rw [read]
        simp only [bind, Except.bind, walkParents_falsy _ fuel falsy]
        exact .root fresh readable (line_succ found ▸ top)
      · rw [read]
        exact .unreadable bad (line_succ found ▸ top)
  · rw [if_neg hashed]
    exact .unhashable (by simpa using hashed)

theorem line_add_none {n : Nat} (top : line messages start n = none) (k : Nat) :
    line messages start (n + k) = none := by
  induction k with
  | zero => exact top
  | succ k ih => simp [line, ih]

theorem walkParents_diverges_iff (filled : start ≠ []) (fuel : Nat) {n : Nat}
    (found : line messages start n = some message) :
    walkParents (asJson messages) fuel (.obj message) (lineIds messages start n) =
        .error .diverges ↔
      (∀ i < fuel, Fresh messages start (n + i)) ∧
        (line messages start (n + fuel)).isSome = true := by
  induction fuel generalizing n message with
  | zero => simp [walkParents, found, filled_line filled found]
  | succ fuel ih =>
    have step : (∀ i < fuel + 1, Fresh messages start (n + i)) ↔
        Fresh messages start n ∧ ∀ i < fuel, Fresh messages start (n + 1 + i) := by
      constructor
      · intro all
        refine ⟨all 0 (by omega), fun i bound => ?_⟩
        rw [show n + 1 + i = n + (i + 1) by omega]
        exact all (i + 1) (by omega)
      · rintro ⟨first, rest⟩ i bound
        cases i with
        | zero => exact first
        | succ i =>
          rw [show n + (i + 1) = n + 1 + i by omega]
          exact rest i (by omega)
    have shift : n + (fuel + 1) = n + 1 + fuel := by omega
    rw [step, shift]
    generalize outcome : walkParents (asJson messages) (fuel + 1) (.obj message)
      (lineIds messages start n) = result
    have round := outcome ▸ round_line filled fuel found
    cases round with
    | unhashable bad =>
      refine iff_of_false (by simp) ?_
      rintro ⟨⟨⟨other, same, hashed, -⟩, -⟩, -⟩
      rw [Option.some.inj (found.symm.trans same), hashed] at bad
      cases bad
    | visited seen =>
      refine iff_of_false (by simp) ?_
      rintro ⟨⟨⟨other, same, -, new⟩, -⟩, -⟩
      exact new (Option.some.inj (found.symm.trans same) ▸ seen)
    | unreadable bad top => simp [line_add_none top fuel]
    | root fresh readable top => simp [line_add_none top fuel]
    | parent fresh readable parent next =>
      rw [and_iff_right fresh, ← ih next]
      cases walkParents (asJson messages) fuel (.obj parent) (lineIds messages start (n + 1)) <;>
        simp [Except.map]

theorem walkParents_ok (filled : start ≠ []) (fuel : Nat) {n : Nat} {list : List Fields}
    (found : line messages start n = some message)
    (ended : walkParents (asJson messages) fuel (.obj message) (lineIds messages start n) = .ok list) :
    ∃ stop ≥ n, lineUpTo messages start stop = list.reverse ++ lineUpTo messages start n ∧
      (∀ k, n ≤ k → k < stop → Fresh messages start k ∧
        ∀ reached, line messages start k = some reached → ¬ Unreadable reached) ∧
      (line messages start stop = none ∨ ∃ again, line messages start stop = some again ∧
        idOf again ∈ lineIds messages start stop) := by
  induction fuel generalizing n message list with
  | zero => simp [walkParents, filled_line filled found] at ended
  | succ fuel ih =>
    have round := ended ▸ round_line filled fuel found
    generalize outcome : Except.ok list = result at round
    cases round with
    | unhashable bad => cases outcome
    | visited seen =>
      cases outcome
      exact ⟨n, le_rfl, by simp, fun k above below => by omega, .inr ⟨message, found, seen⟩⟩
    | unreadable bad top => cases outcome
    | root fresh readable top =>
      cases outcome
      refine ⟨n + 1, by omega, by simp [lineUpTo, found], ?_, .inl top⟩
      intro k above below
      obtain rfl : k = n := by omega
      exact ⟨fresh, fun reached same => Option.some.inj (found.symm.trans same) ▸ readable⟩
    | parent fresh readable parent next =>
      cases walked : walkParents (asJson messages) fuel (.obj parent)
          (lineIds messages start (n + 1)) with
      | error error => simp [walked, Except.map] at outcome
      | ok rest =>
        obtain ⟨stop, later, upTo, all, ends⟩ := ih next walked
        simp only [walked, Except.map, Except.ok.injEq] at outcome
        subst outcome
        refine ⟨stop, by omega, by simp [upTo, lineUpTo, found], ?_, ends⟩
        intro k above below
        rcases Nat.lt_or_eq_of_le above with further | rfl
        · exact all k further below
        · exact ⟨fresh, fun reached same => Option.some.inj (found.symm.trans same) ▸ readable⟩

theorem walkParents_error (filled : start ≠ []) (fuel : Nat) {n : Nat} {error : PyError}
    (found : line messages start n = some message)
    (raised : walkParents (asJson messages) fuel (.obj message) (lineIds messages start n) =
      .error error) :
    error = .diverges ∨ ∃ k reached, line messages start k = some reached ∧
      ((idOf reached).hashable = false ∨ Unreadable reached) := by
  induction fuel generalizing n message with
  | zero =>
    simp only [walkParents, truthy_obj_of_filled (filled_line filled found), if_true] at raised
    exact .inl (Except.error.inj raised).symm
  | succ fuel ih =>
    have round := raised ▸ round_line filled fuel found
    generalize outcome : (Except.error error : Except PyError (List Fields)) = result at round
    cases round with
    | unhashable bad => exact .inr ⟨n, message, found, .inl bad⟩
    | visited seen => cases outcome
    | unreadable bad top => exact .inr ⟨n, message, found, .inr bad⟩
    | root fresh readable top => cases outcome
    | parent fresh readable parent next =>
      cases walked : walkParents (asJson messages) fuel (.obj parent)
          (lineIds messages start (n + 1)) with
      | error inner =>
        simp only [walked, Except.map, Except.error.injEq] at outcome
        exact ih next (outcome ▸ walked)
      | ok rest => simp [walked, Except.map] at outcome

theorem walkParents_more (messages_map : MessagesMap) {fuel : Nat} {current : Json}
    {visited : List Json} (ended : walkParents messages_map fuel current visited ≠ .error .diverges) :
    walkParents messages_map (fuel + 1) current visited =
      walkParents messages_map fuel current visited := by
  induction fuel generalizing current visited with
  | zero =>
    cases truthy : current.truthy with
    | true => simp [walkParents, truthy] at ended
    | false => rw [walkParents_falsy _ _ truthy, walkParents_falsy _ _ truthy]
  | succ fuel ih =>
    unfold walkParents at ended ⊢
    split
    · rename_i truthy
      rw [if_pos truthy] at ended
      cases current with
      | obj message =>
        dsimp only at ended ⊢
        split
        · rename_i hashed
          rw [if_pos hashed] at ended
          split
          · rfl
          · rename_i new
            rw [if_neg new] at ended
            cases read : parentMessage messages_map (getField message "parentId") with
            | error error => rfl
            | ok parent =>
              have inner := @ih parent (if getField message "id" = .null then visited
                else getField message "id" :: visited)
              simp only [read, bind, Except.bind] at ended ⊢
              rw [inner]
              intro endless
              simp [endless] at ended
        · rfl
      | _ => rfl
    · rfl

theorem forever_iff : (∀ n, Fresh messages start n) ↔
    ∃ first period, 0 < period ∧ (∀ k < first, Fresh messages start k) ∧
      line messages start (first + period) = line messages start first ∧
      ∀ k, first ≤ k → k < first + period →
        ∃ message, line messages start k = some message ∧ idOf message = .null := by
  have repeated : ∀ {first period : Nat},
      line messages start (first + period) = line messages start first → ∀ k,
      line messages start (first + k + period) = line messages start (first + k) := by
    intro first period same k
    induction k with
    | zero => exact same
    | succ k ih =>
      rw [show first + (k + 1) + period = first + k + period + 1 by omega, line, ih]
      rfl
  constructor
  · intro all
    have known : ∀ n, line messages start n ∈
        some start :: messages.entries.map (fun entry => some entry.2) := by
      intro n
      cases n with
      | zero => exact List.mem_cons_self
      | succ n =>
        obtain ⟨message, found, -⟩ := all (n + 1)
        obtain ⟨below, -, parent⟩ := Option.bind_eq_some_iff.mp found
        obtain ⟨-, parent_id, -, stored⟩ := stored_of_above parent
        exact List.mem_cons_of_mem _
          (List.mem_map.mpr ⟨(parent_id, message), Dict.mem_entries_iff.mpr stored, found.symm⟩)
    obtain ⟨first, -, second, -, different, same⟩ :=
      Set.Infinite.exists_ne_map_eq_of_mapsTo Set.infinite_univ (fun n _ => known n)
        (List.finite_toSet _)
    wlog ordered : first < second generalizing first second
    · exact this second first different.symm same.symm (by omega)
    refine ⟨first, second - first, by omega, fun k _ => all k,
      by rw [show first + (second - first) = second by omega, same], ?_⟩
    intro k above below
    obtain ⟨message, found, -⟩ := all k
    obtain ⟨other, again, -, new⟩ := all (k + (second - first))
    have circle := @repeated first (second - first)
      (by rw [show first + (second - first) = second by omega, same]) (k - first)
    rw [show first + (k - first) = k by omega, found, again] at circle
    obtain rfl := Option.some.inj circle
    by_contra named
    exact new (mem_lineIds.mpr
      ⟨fun absent => named ⟨other, found, absent⟩, k, by omega, other, found, rfl⟩)
  · rintro ⟨first, period, positive, before, same, nameless⟩ n
    by_cases early : n < first
    · exact before n early
    · have round : ∀ k, ∃ message, line messages start (first + k) = some message ∧
          idOf message = .null := by
        intro k
        induction k using Nat.strong_induction_on with
        | _ k ih =>
          by_cases inside : k < period
          · exact nameless (first + k) (by omega) (by omega)
          · have earlier := ih (k - period) (by omega)
            rwa [← repeated same, show first + (k - period) + period = first + k by omega] at earlier
      obtain ⟨message, found, absent⟩ := round (n - first)
      rw [show first + (n - first) = n by omega] at found
      exact ⟨message, found, by rw [absent]; rfl, fun seen => (mem_lineIds.mp seen).1 absent⟩

end Walk

/-- The parents lead into a circle of messages without ids, past none whose id is unhashable or
repeats an earlier one. -/
def Endless (messages : Dict String Fields) (message_id : String) : Prop :=
  ∃ start, messages.get? message_id = some start ∧ start ≠ [] ∧
    ∃ first period, 0 < period ∧ (∀ k < first, Fresh messages start k) ∧
      line messages start (first + period) = line messages start first ∧
      ∀ k, first ≤ k → k < first + period →
        ∃ message, line messages start k = some message ∧ idOf message = .null

def Named (messages : Dict String Fields) : Prop :=
  ∀ id message, messages.get? id = some message → idOf message = .str id

def Reached (messages : Dict String Fields) (message_id : String) (message : Fields) : Prop :=
  ∃ start n, messages.get? message_id = some start ∧ line messages start n = some message

/-- From some number of rounds on, a loop comes to one and the same result. -/
def Settles (run : Nat → Except PyError (List Fields)) (result : Except PyError (List Fields)) : Prop :=
  result ≠ .error .diverges ∧ ∃ enough, ∀ fuel ≥ enough, run fuel = result

/-- A branch from its root to a message; an empty parent id names no parent. -/
structure Branch (messages : Dict String Fields) (message_id : String) (list : List Fields) : Prop where
  last : list.getLast? = messages.get? message_id
  distinct : list.Nodup
  linked : list.IsChain (fun before after => parentIdOf after = idOf before)
  head : ∀ first, list.head? = some first →
    (∀ parent_id, parentIdOf first = .str parent_id → parent_id ≠ "" → parent_id ∉ messages.keys) ∨
      parentIdOf first ∈ list.map idOf

section Named

variable {messages : Dict String Fields} {message_id : String} {start : Fields}

theorem Named.id_of_line (named : Named messages) (stored : messages.get? message_id = some start)
    {n : Nat} {message : Fields} (found : line messages start n = some message) :
    ∃ id, messages.get? id = some message ∧ idOf message = .str id := by
  cases n with
  | zero =>
    obtain rfl := Option.some.inj found
    exact ⟨message_id, stored, named message_id start stored⟩
  | succ n =>
    obtain ⟨below, -, parent⟩ := Option.bind_eq_some_iff.mp found
    obtain ⟨-, id, -, stored⟩ := stored_of_above parent
    exact ⟨id, stored, named id message stored⟩

theorem Named.filled (named : Named messages) (stored : messages.get? message_id = some start) :
    start ≠ [] := by
  rintro rfl
  simpa using named message_id [] stored

theorem Named.same (named : Named messages) (stored : messages.get? message_id = some start)
    {first second : Nat} {message other : Fields} (found : line messages start first = some message)
    (again : line messages start second = some other) (same : idOf message = idOf other) :
    message = other := by
  obtain ⟨id, here, first_id⟩ := named.id_of_line stored found
  obtain ⟨other_id, there, second_id⟩ := named.id_of_line stored again
  rw [first_id, second_id] at same
  obtain rfl := Json.str.inj same
  exact Option.some.inj (here.symm.trans there)

theorem lineIds_eq (named : Named messages) (stored : messages.get? message_id = some start)
    (n : Nat) : lineIds messages start n = (lineUpTo messages start n).map idOf := by
  refine List.filter_eq_self.mpr fun id member => ?_
  obtain ⟨message, inside, rfl⟩ := List.mem_map.mp member
  obtain ⟨k, -, found⟩ := mem_lineUpTo.mp inside
  obtain ⟨id, -, same⟩ := named.id_of_line stored found
  simp [same]

theorem line_of_again (named : Named messages) (stored : messages.get? message_id = some start)
    {stop : Nat} {again : Fields} (found : line messages start stop = some again)
    (seen : idOf again ∈ lineIds messages start stop) (n : Nat) :
    (line messages start n).isSome = true := by
  obtain ⟨-, k, earlier, message, passed, same⟩ := mem_lineIds.mp seen
  obtain rfl := named.same stored passed found same
  have circle : ∀ n, (line messages start (k + n)).isSome = true := by
    intro n
    induction n using Nat.strong_induction_on with
    | _ n ih =>
      by_cases inside : k + n ≤ stop
      · by_contra missing
        have top := line_add_none (by simpa using missing) (stop - (k + n))
        rw [show k + n + (stop - (k + n)) = stop by omega, found] at top
        cases top
      · have repeated : ∀ i, line messages start (stop + i) = line messages start (k + i) := by
          intro i
          induction i with
          | zero => exact found.trans passed.symm
          | succ i ih => rw [← Nat.add_assoc, ← Nat.add_assoc, line, ih]; rfl
        have before := ih (n - (stop - k)) (by omega)
        rwa [← repeated, show stop + (n - (stop - k)) = k + n by omega] at before
  by_contra missing
  have top := line_add_none (by simpa using missing) k
  rw [Nat.add_comm] at top
  simpa [top] using circle n

theorem branch_lineUpTo (named : Named messages) (stored : messages.get? message_id = some start)
    {stop : Nat} (all : ∀ k < stop, Fresh messages start k)
    (ends : line messages start stop = none ∨ ∃ again, line messages start stop = some again ∧
      idOf again ∈ lineIds messages start stop) :
    Branch messages message_id (lineUpTo messages start stop) where
  last := by
    have shape : ∀ n, (lineUpTo messages start (n + 1)).getLast? = some start := by
      intro n
      induction n with
      | zero => rfl
      | succ n ih => rw [lineUpTo, List.getLast?_append, ih]; rfl
    cases stop with
    | zero =>
      rcases ends with top | ⟨again, -, seen⟩
      · cases top
      · simp [lineIds, lineUpTo] at seen
    | succ stop => rw [shape, stored]
  distinct := by
    clear ends
    induction stop with
    | zero => exact List.nodup_nil
    | succ stop ih =>
      obtain ⟨message, found, -, new⟩ := all stop (Nat.lt_succ_self stop)
      have rest := ih fun k earlier => all k (Nat.lt_succ_of_lt earlier)
      simp only [lineUpTo, found, Option.toList_some, List.singleton_append, List.nodup_cons]
      refine ⟨fun member => new ?_, rest⟩
      rw [lineIds_eq named stored]
      exact List.mem_map_of_mem member
  linked := by
    clear ends
    induction stop with
    | zero => exact .nil
    | succ stop ih =>
      obtain ⟨message, found, -⟩ := all stop (Nat.lt_succ_self stop)
      have rest := ih fun k earlier => all k (Nat.lt_succ_of_lt earlier)
      cases stop with
      | zero => simp [lineUpTo, found]
      | succ below =>
        obtain ⟨child, parent, above⟩ := Option.bind_eq_some_iff.mp found
        simp only [lineUpTo, found, parent, Option.toList_some, List.singleton_append] at rest ⊢
        refine .cons_cons ?_ rest
        obtain ⟨-, parent_id, link, kept⟩ := stored_of_above above
        rw [link, named parent_id message kept]
  head := by
    intro first leading
    cases stop with
    | zero => cases leading
    | succ below =>
      obtain ⟨message, found, -⟩ := all below (Nat.lt_succ_self below)
      obtain rfl : message = first := by simpa [lineUpTo, found] using leading
      rw [line_succ found] at ends
      rcases ends with top | ⟨again, parent, seen⟩
      · refine .inl fun parent_id link filled member => ?_
        obtain ⟨parent, kept⟩ := Dict.exists_of_mem_keys member
        simp only [above, link, filled, kept, if_false, Option.filter_some, ite_eq_right_iff] at top
        exact named.filled kept (by simpa using top)
      · obtain ⟨-, parent_id, link, kept⟩ := stored_of_above parent
        rw [lineIds_eq named stored, named parent_id again kept, ← link] at seen
        exact .inr seen

end Named

variable {messages : Dict String Fields} {message_id : String} {start : Fields}

theorem get_message_list_asJson (stored : messages.get? message_id = some start) (fuel : Nat) :
    get_message_list fuel (asJson messages) message_id =
      (walkParents (asJson messages) fuel (.obj start) (lineIds messages start 0)).map List.reverse := by
  simp [get_message_list, asJson, stored, lineIds, lineUpTo]

theorem map_reverse_diverges {result : Except PyError (List Fields)} :
    result.map List.reverse = .error .diverges ↔ result = .error .diverges := by
  cases result <;> simp [Except.map]

theorem settles_of_ended {enough : Nat}
    (ended : get_message_list enough (asJson messages) message_id ≠ .error .diverges) :
    Settles (fun fuel => get_message_list fuel (asJson messages) message_id)
      (get_message_list enough (asJson messages) message_id) := by
  refine ⟨ended, enough, fun fuel more => ?_⟩
  obtain ⟨extra, rfl⟩ := Nat.exists_eq_add_of_le more
  induction extra with
  | zero => rfl
  | succ extra ih =>
    have before : get_message_list (enough + extra) (asJson messages) message_id = _ :=
      ih (Nat.le_add_right _ _)
    have open_end := before.symm ▸ ended
    rw [← before]
    simp only [get_message_list, ← Nat.add_assoc] at open_end ⊢
    rw [walkParents_more _ fun endless => open_end (map_reverse_diverges.mpr endless)]

theorem settles_iff_not_endless :
    (∃ result, Settles (fun fuel => get_message_list fuel (asJson messages) message_id) result) ↔
      ¬ Endless messages message_id := by
  cases stored : messages.get? message_id with
  | none =>
    refine iff_of_true ⟨_, @settles_of_ended _ _ 0 ?_⟩ ?_
    · simp [get_message_list, asJson, stored, Except.map]
    · rintro ⟨start, found, -⟩
      cases stored.symm.trans found
  | some start =>
    by_cases filled : start = []
    · subst filled
      refine iff_of_true ⟨_, @settles_of_ended _ _ 0 ?_⟩ ?_
      · simp [get_message_list_asJson stored, walkParents, Except.map]
      · rintro ⟨start, found, present, -⟩
        exact present (Option.some.inj (found.symm.trans stored))
    · have endless_iff : Endless messages message_id ↔ ∀ n, Fresh messages start n := by
        rw [forever_iff]
        constructor
        · rintro ⟨other, found, -, circle⟩
          exact Option.some.inj (found.symm.trans stored) ▸ circle
        · exact fun circle => ⟨start, stored, filled, circle⟩
      have diverges_iff : ∀ fuel,
          get_message_list fuel (asJson messages) message_id = .error .diverges ↔
            (∀ i < fuel, Fresh messages start i) ∧ (line messages start fuel).isSome = true := by
        intro fuel
        rw [get_message_list_asJson stored, map_reverse_diverges,
          walkParents_diverges_iff filled fuel (n := 0) rfl]
        simp
      rw [endless_iff]
      constructor
      · rintro ⟨result, ended, enough, settled⟩ all
        refine ended (settled enough le_rfl ▸ (diverges_iff enough).mpr ⟨fun i _ => all i, ?_⟩)
        obtain ⟨message, found, -⟩ := all enough
        simp [found]
      · intro stops
        obtain ⟨n, stale⟩ := not_forall.mp stops
        refine ⟨_, @settles_of_ended _ _ (n + 1) fun endless => stale ?_⟩
        exact ((diverges_iff (n + 1)).mp endless).1 n (Nat.lt_succ_self n)

theorem Named.readable_of_ok (named : Named messages) (stored : messages.get? message_id = some start)
    {fuel : Nat} {list : List Fields}
    (ended : get_message_list fuel (asJson messages) message_id = .ok list) {message : Fields}
    (reached : Reached messages message_id message) : ¬ Unreadable message := by
  intro bad
  obtain ⟨other, n, found, place⟩ := reached
  obtain rfl := Option.some.inj (stored.symm.trans found)
  have top : line messages start (n + 1) = none := by
    rw [line_succ place]
    unfold above
    split
    · rename_i parent_id link
      have hashed := bad.2
      rw [link] at hashed
      cases hashed
    · rfl
  rw [get_message_list_asJson stored] at ended
  cases walked : walkParents (asJson messages) fuel (.obj start) (lineIds messages start 0) with
  | error error => simp [walked, Except.map] at ended
  | ok walkedList =>
    obtain ⟨stop, -, -, all, ends⟩ := walkParents_ok (named.filled stored) fuel (n := 0) rfl walked
    by_cases before : n < stop
    · exact (all n (Nat.zero_le n) before).2 message place bad
    · rcases ends with missing | ⟨again, passed, seen⟩
      · have past := line_add_none missing (n - stop)
        rw [show stop + (n - stop) = n by omega, place] at past
        cases past
      · simpa [top] using line_of_again named stored passed seen (n + 1)

theorem Named.branch (named : Named messages) (stored : messages.get? message_id = some start)
    (readable : ∀ message, Reached messages message_id message → ¬ Unreadable message)
    {fuel : Nat} (ended : get_message_list fuel (asJson messages) message_id ≠ .error .diverges) :
    ∃ list, get_message_list fuel (asJson messages) message_id = .ok list ∧
      Branch messages message_id list := by
  rw [get_message_list_asJson stored] at ended ⊢
  have filled := named.filled stored
  cases walked : walkParents (asJson messages) fuel (.obj start) (lineIds messages start 0) with
  | error error =>
    rcases walkParents_error filled fuel (n := 0) rfl walked with rfl | ⟨k, message, found, bad⟩
    · exact absurd (by rw [walked]; rfl) ended
    · obtain ⟨id, -, same⟩ := named.id_of_line stored found
      rcases bad with unhashable | unreadable
      · rw [same] at unhashable
        cases unhashable
      · exact absurd unreadable (readable message ⟨start, k, stored, found⟩)
  | ok list =>
    obtain ⟨stop, -, upTo, all, ends⟩ := walkParents_ok filled fuel (n := 0) rfl walked
    have whole : lineUpTo messages start stop = list.reverse := by simpa [lineUpTo] using upTo
    exact ⟨list.reverse, rfl, whole ▸ branch_lineUpTo named stored
      (fun k earlier => (all k (Nat.zero_le k) earlier).1) ends⟩

def ownParent : Dict String Fields := Dict.empty.set "a" [("parentId", .str "a")]

end OpenWebui.Utils
