import OpenWebui.Utils.Lineage

/-! `build_fork_history`: the branch of a message is copied into a history of its own. The messages are
objects at addresses, as the copies that the history and the list share are changed in place. -/

namespace OpenWebui.Utils

inductive ForkError where
  | valueError (message : String)
  | typeError
  | keyError
  deriving DecidableEq

/-- A map of messages; a value that is no dictionary has no address. -/
structure MessageStore where
  objects : List Fields
  messages_map : Dict String (Option (Fin objects.length))

theorem unseen_lt {keys seen : List String} {id : String} (member : id ∈ keys) (unseen : id ∉ seen) :
    (keys.filter (fun key => key ∉ id :: seen)).length < (keys.filter (fun key => key ∉ seen)).length := by
  have same : keys.filter (fun key => key ∉ id :: seen) =
      (keys.filter (fun key => key ∉ seen)).filter (fun key => key ≠ id) := by
    rw [List.filter_filter]
    exact List.filter_congr fun key _ => by simp [not_or]
  rw [same, List.length_filter_lt_length_iff_exists]
  exact ⟨id, by simp [member, unseen], by simp⟩

def walkBranch (store : MessageStore) (message_id : Json) (seen : List String) :
    Except ForkError (List (String × Fin store.objects.length)) :=
  if message_id.truthy then
    match message_id with
    | .str id =>
      if visited : id ∈ seen then .error (.valueError "message branch contains a cycle")
      else
        match found : store.messages_map.get? id with
        | some (some message) => do
          let rest ← walkBranch store (parentIdOf (store.objects.get message)) (id :: seen)
          .ok ((id, message) :: rest)
        | _ => .error (.valueError "message not found")
    | _ => if message_id.hashable then .error (.valueError "message not found") else .error .typeError
  else .ok []
termination_by (store.messages_map.keys.filter (fun key => key ∉ seen)).length
decreasing_by exact unseen_lt (Dict.mem_keys_of_get? found) visited

structure Forking where
  objects : List Fields
  fork_messages : Dict String Nat
  ordered_messages : List Nat
  parent_id : Option String

def parentValue : Option String → Json
  | none => .null
  | some parent_id => .str parent_id

def forkMessage (state : Forking) (message_id : String) (message : Nat) : Except ForkError Forking := do
  let copied := Assoc.set (Assoc.set (Assoc.set (state.objects.getD message []) "id" (.str message_id))
    "parentId" (parentValue state.parent_id)) "childrenIds" (.arr [])
  let objects ← match state.parent_id with
    | some parent_id =>
      if parent_id = "" then .ok (state.objects ++ [copied])
      else match state.fork_messages.get? parent_id with
        | some parent => .ok ((state.objects ++ [copied]).modify parent
            (fun above => Assoc.set above "childrenIds" (.arr [.str message_id])))
        | none => .error .keyError
    | none => .ok (state.objects ++ [copied])
  .ok { objects := objects
        fork_messages := state.fork_messages.set message_id state.objects.length
        ordered_messages := state.ordered_messages ++ [state.objects.length]
        parent_id := some message_id }

structure ForkHistory where
  objects : List Fields
  messages : Dict String Nat
  currentId : String
  ordered_messages : List Nat

def build_fork_history (store : MessageStore) (source_message_id : String) :
    Except ForkError ForkHistory :=
  if store.messages_map.keys = [] then .error (.valueError "chat has no messages to fork")
  else do
    let branch ← walkBranch store (.str source_message_id) []
    let state ← branch.reverse.foldlM (fun state entry => forkMessage state entry.1 entry.2)
      ⟨store.objects, .empty, [], none⟩
    .ok ⟨state.objects, state.fork_messages, source_message_id, state.ordered_messages⟩

def ForkHistory.history (fork : ForkHistory) : Dict String Fields :=
  fork.messages.mapValue (fun _ message => fork.objects.getD message [])

def ForkHistory.ordered (fork : ForkHistory) : List Fields :=
  fork.ordered_messages.map (fun message => fork.objects.getD message [])

section Chain

variable {store : MessageStore} {source : String}

def messageAt (store : MessageStore) : Json → Option (String × Fin store.objects.length)
  | .str id => if id = "" then none else (store.messages_map.get? id).join.map (Prod.mk id)
  | _ => none

/-- The ids of the chain: the source's, then each message's `parentId`. -/
def link (store : MessageStore) (source : String) : Nat → Option Json
  | 0 => some (.str source)
  | n + 1 => (link store source n).bind fun message_id =>
    (messageAt store message_id).map fun entry => parentIdOf (store.objects.get entry.2)

def ReachesMissing (store : MessageStore) (source : String) : Prop :=
  ∃ n message_id, link store source n = some message_id ∧ message_id.truthy = true ∧
    message_id.hashable = true ∧ messageAt store message_id = none

def ReachesCycle (store : MessageStore) (source : String) : Prop :=
  ∃ first second message_id, first < second ∧ link store source first = some message_id ∧
    link store source second = some message_id

def ReachesUnhashable (store : MessageStore) (source : String) : Prop :=
  ∃ n message_id, link store source n = some message_id ∧ message_id.truthy = true ∧
    message_id.hashable = false

def ancestor (store : MessageStore) (source : String) (n : Nat) :
    Option (String × Fin store.objects.length) := (link store source n).bind (messageAt store)

theorem messageAt_of_falsy {message_id : Json} (falsy : message_id.truthy = false) :
    messageAt store message_id = none := by
  cases message_id with
  | str id => simp [messageAt, by simpa using falsy]
  | _ => rfl

theorem messageAt_of_unhashable {message_id : Json} (bad : message_id.hashable = false) :
    messageAt store message_id = none := by
  cases message_id with
  | str id => cases bad
  | _ => rfl

theorem messageAt_some {message_id : Json} {entry : String × Fin store.objects.length}
    (found : messageAt store message_id = some entry) :
    message_id = .str entry.1 ∧ entry.1 ≠ "" ∧ store.messages_map.get? entry.1 = some (some entry.2) := by
  cases message_id with
  | str id =>
    by_cases empty : id = ""
    · simp [messageAt, empty] at found
    · simp only [messageAt, if_neg empty, Option.map_eq_some_iff, Option.join_eq_some_iff] at found
      obtain ⟨message, stored, rfl⟩ := found
      exact ⟨rfl, empty, stored⟩
  | _ => cases found

theorem link_succ {n : Nat} {message_id : Json} (place : link store source n = some message_id) :
    link store source (n + 1) =
      (messageAt store message_id).map fun entry => parentIdOf (store.objects.get entry.2) := by
  simp [link, place]

/-- An id of the chain at which it ends. -/
def EndsAt (store : MessageStore) (source : String) (n : Nat) (message_id : Json) : Prop :=
  link store source n = some message_id ∧ messageAt store message_id = none

theorem EndsAt.beyond {n : Nat} {last : Json} (ends : EndsAt store source n last) {k : Nat}
    (beyond : n < k) : link store source k = none := by
  induction k, beyond using Nat.le_induction with
  | base => rw [link_succ ends.1, ends.2]; rfl
  | succ k _ ih => simp [link, ih]

theorem EndsAt.unique {n k : Nat} {last other : Json} (ends : EndsAt store source n last)
    (again : EndsAt store source k other) : last = other := by
  rcases Nat.lt_trichotomy n k with before | rfl | after
  · exact nomatch again.1.symm.trans (ends.beyond before)
  · exact Option.some.inj (ends.1.symm.trans again.1)
  · exact nomatch ends.1.symm.trans (again.beyond after)

theorem EndsAt.no_cycle {n : Nat} {last : Json} (ends : EndsAt store source n last) :
    ¬ ReachesCycle store source := by
  rintro ⟨first, second, message_id, order, place, again⟩
  have repeated : ∀ k, link store source (first + k) = link store source (second + k) := by
    intro k
    induction k with
    | zero => exact place.trans again.symm
    | succ k ih => rw [← Nat.add_assoc, ← Nat.add_assoc, link, link, ih]
  by_cases reached : n < first
  · exact nomatch place.symm.trans (ends.beyond reached)
  · have later := repeated (n - first)
    rw [show first + (n - first) = n by omega, ends.1, ends.beyond (by omega)] at later
    cases later

/-- What the loop over the parents gives from an id of the chain on. -/
inductive Walked (store : MessageStore) (source : String) (n : Nat) :
    Except ForkError (List (String × Fin store.objects.length)) → Prop where
  | cycle (repeated : ReachesCycle store source) :
      Walked store source n (.error (.valueError "message branch contains a cycle"))
  | missing (missing : ReachesMissing store source) :
      Walked store source n (.error (.valueError "message not found"))
  | unhashable (bad : ReachesUnhashable store source) : Walked store source n (.error .typeError)
  | root (branch : List (String × Fin store.objects.length)) (last : Json)
      (ancestors : ∀ k, ancestor store source (n + k) = branch[k]?)
      (ends : EndsAt store source (n + branch.length) last) (falsy : last.truthy = false) :
      Walked store source n (.ok branch)

theorem walked {n : Nat} {message_id : Json} {seen : List String}
    (place : link store source n = some message_id)
    (known : ∀ id ∈ seen, ∃ k < n, link store source k = some (.str id)) :
    Walked store source n (walkBranch store message_id seen) := by
  fun_induction walkBranch store message_id seen generalizing n with
  | case1 seen id visited truthy =>
    obtain ⟨k, earlier, before⟩ := known id visited
    exact .cycle ⟨k, n, .str id, earlier, before, place⟩
  | case2 seen id visited message found truthy ih =>
    have named : messageAt store (.str id) = some (id, message) := by
      simp [messageAt, found, by simpa using truthy]
    have next : link store source (n + 1) = some (parentIdOf (store.objects.get message)) := by
      rw [link_succ place, named]; rfl
    have rest := ih next fun other member => by
      rcases List.mem_cons.mp member with rfl | member
      · exact ⟨n, Nat.lt_succ_self n, place⟩
      · obtain ⟨k, earlier, before⟩ := known other member
        exact ⟨k, Nat.lt_succ_of_lt earlier, before⟩
    generalize walkBranch store (parentIdOf (store.objects.get message)) (id :: seen) = result at rest
    cases rest with
    | cycle repeated => exact .cycle repeated
    | missing missing => exact .missing missing
    | unhashable bad => exact .unhashable bad
    | root branch last ancestors ends falsy =>
      refine .root ((id, message) :: branch) last (fun k => ?_) ?_ falsy
      · cases k with
        | zero => simp [ancestor, place, named]
        | succ k =>
          rw [show n + (k + 1) = n + 1 + k by omega, ancestors k, List.getElem?_cons_succ]
      · rwa [List.length_cons, show n + (branch.length + 1) = n + 1 + branch.length by omega]
  | case3 seen id visited absent truthy =>
    refine .missing ⟨n, .str id, place, truthy, rfl, ?_⟩
    cases named : messageAt store (.str id) with
    | none => rfl
    | some entry =>
      obtain ⟨same, -, stored⟩ := messageAt_some named
      exact absurd (Json.str.inj same ▸ stored) (absent entry.2)
  | case4 message_id seen truthy hashed other =>
    rw [if_pos hashed]
    refine .missing ⟨n, message_id, place, truthy, hashed, ?_⟩
    cases message_id with
    | str id => exact absurd rfl (other id)
    | _ => rfl
  | case5 message_id seen truthy hashed other =>
    rw [if_neg hashed]
    exact .unhashable ⟨n, message_id, place, truthy, by simpa using hashed⟩
  | case6 message_id seen truthy =>
    have falsy : message_id.truthy = false := by simpa using truthy
    have ends : EndsAt store source n message_id := ⟨place, messageAt_of_falsy falsy⟩
    refine .root [] message_id (fun k => ?_) ends falsy
    cases k with
    | zero => simp [ancestor, place, ends.2]
    | succ k => simp [ancestor, ends.beyond (show n < n + (k + 1) by omega)]

theorem branch_ids {branch : List (String × Fin store.objects.length)} {last : Json}
    (ancestors : ∀ k, ancestor store source k = branch[k]?)
    (ends : EndsAt store source branch.length last) :
    (branch.map Prod.fst).Nodup ∧ ∀ entry ∈ branch, entry.1 ≠ "" := by
  have named : ∀ k (inside : k < branch.length), branch[k].1 ≠ "" ∧
      link store source k = some (.str branch[k].1) := by
    intro k inside
    have here := ancestors k
    rw [List.getElem?_eq_getElem inside] at here
    obtain ⟨message_id, place, found⟩ := Option.bind_eq_some_iff.mp here
    obtain ⟨rfl, filled, -⟩ := messageAt_some found
    exact ⟨filled, place⟩
  constructor
  · rw [List.nodup_iff_injective_getElem]
    intro first second same
    simp only [List.getElem_map] at same
    have bound : ∀ k : Fin (branch.map Prod.fst).length, k.val < branch.length :=
      fun k => by simpa using k.isLt
    by_contra different
    have one := (named first (bound first)).2
    have two := (named second (bound second)).2
    rw [same] at one
    rcases Nat.lt_or_gt_of_ne (fun equal => different (Fin.ext equal)) with order | order
    · exact ends.no_cycle ⟨first, second, _, order, one, two⟩
    · exact ends.no_cycle ⟨second, first, _, order, two, one⟩
  · intro entry member
    obtain ⟨k, inside, rfl⟩ := List.getElem_of_mem member
    exact (named k inside).1

end Chain

section Copies

def copyOf (message : Fields) (id : String) (parent : Option String) (children : List String) : Fields :=
  Assoc.set (Assoc.set (Assoc.set message "id" (.str id)) "parentId" (parentValue parent))
    "childrenIds" (.arr (children.map .str))

def upward (children : List String) : List (String × Fields) → List (String × Fields)
  | [] => []
  | (id, message) :: above =>
    (id, copyOf message id (above.head?.map Prod.fst) children) :: upward [id] above

@[simp] theorem upward_ids (children : List String) (branch : List (String × Fields)) :
    (upward children branch).map Prod.fst = branch.map Prod.fst := by
  induction branch generalizing children with
  | nil => rfl
  | cons entry above ih => simp [upward, ih]

@[simp] theorem length_upward (children : List String) (branch : List (String × Fields)) :
    (upward children branch).length = branch.length := by
  simpa only [List.length_map] using congrArg List.length (upward_ids children branch)

variable (store : MessageStore)

def view (branch : List (String × Fin store.objects.length)) : List (String × Fields) :=
  branch.map fun entry => (entry.1, store.objects.get entry.2)

/-- What the loop over the branch has built when it has come down to some message. -/
structure Built (branch : List (String × Fin store.objects.length)) (state : Forking) : Prop where
  objects : state.objects = store.objects ++ ((upward [] (view store branch)).reverse.map Prod.snd)
  fork_messages : state.fork_messages.entries =
    (branch.reverse.map Prod.fst).zipIdx store.objects.length
  ordered_messages : state.ordered_messages = state.fork_messages.entries.map Prod.snd
  parent_id : state.parent_id = branch.head?.map Prod.fst

theorem modify_middle {α : Type} (before after : List α) (item : α) (update : α → α) :
    (before ++ item :: after).modify before.length update = before ++ update item :: after := by
  induction before with
  | nil => rfl
  | cons head rest ih => simp [ih]

variable {store}

theorem Built.keys {branch : List (String × Fin store.objects.length)} {state : Forking}
    (built : Built store branch state) : state.fork_messages.keys = branch.reverse.map Prod.fst := by
  rw [Dict.keys, Assoc.keys, built.fork_messages, List.zipIdx_map_fst]

theorem forkMessage_built {branch : List (String × Fin store.objects.length)} {state : Forking}
    (built : Built store branch state) {id : String} {message : Fin store.objects.length}
    (fresh : id ∉ branch.map Prod.fst) (named : ∀ entry ∈ branch, entry.1 ≠ "") :
    ∃ next, forkMessage state id message = .ok next ∧ Built store ((id, message) :: branch) next := by
  have read : state.objects.getD message [] = store.objects.get message := by
    rw [built.objects, List.getD_eq_getElem?_getD, List.getElem?_append_left message.isLt,
      List.getElem?_eq_getElem message.isLt]
    rfl
  have unused : id ∉ state.fork_messages.keys := by simpa [built.keys] using fresh
  have entries : (state.fork_messages.set id state.objects.length).entries =
      (((id, message) :: branch).reverse.map Prod.fst).zipIdx store.objects.length := by
    rw [Dict.entries_set_of_fresh unused, built.fork_messages, built.objects]
    simp [List.zipIdx_append, view]
  have addresses : state.ordered_messages ++ [state.objects.length] =
      (state.fork_messages.set id state.objects.length).entries.map Prod.snd := by
    rw [Dict.entries_set_of_fresh unused, built.ordered_messages]
    simp
  unfold forkMessage
  rw [read, built.parent_id]
  cases branch with
  | nil =>
    refine ⟨_, rfl, ⟨?_, entries, addresses, rfl⟩⟩
    simp [built.objects, view, upward, copyOf]
  | cons parent above =>
    have filled : parent.1 ≠ "" := named parent List.mem_cons_self
    have place : state.fork_messages.get? parent.1 = some (store.objects.length + above.length) := by
      refine Dict.mem_entries_iff.mp ?_
      rw [built.fork_messages]
      simp [List.zipIdx_append]
    simp only [List.head?_cons, Option.map_some, if_neg filled, place]
    refine ⟨_, rfl, ⟨?_, entries, addresses, rfl⟩⟩
    have below : state.objects = (store.objects ++
        (upward [parent.1] (view store above)).reverse.map Prod.snd) ++
          [copyOf (store.objects.get parent.2) parent.1 (above.head?.map Prod.fst) []] := by
      simp [built.objects, view, upward, Function.comp_def]
    have position : store.objects.length + above.length = (store.objects ++
        (upward [parent.1] (view store above)).reverse.map Prod.snd).length := by
      simp [view]
    rw [below, position, List.append_assoc, List.singleton_append, modify_middle]
    simp [view, upward, copyOf, Function.comp_def]

theorem fold_built (branch : List (String × Fin store.objects.length))
    (distinct : (branch.map Prod.fst).Nodup) (named : ∀ entry ∈ branch, entry.1 ≠ "") :
    ∃ state, branch.reverse.foldlM (fun state entry => forkMessage state entry.1 entry.2)
      ⟨store.objects, .empty, [], none⟩ = .ok state ∧ Built store branch state := by
  induction branch with
  | nil => exact ⟨_, rfl, ⟨by simp [view, upward], rfl, rfl, rfl⟩⟩
  | cons entry above ih =>
    obtain ⟨fresh, rest⟩ := List.nodup_cons.mp distinct
    have further : ∀ other ∈ above, other.1 ≠ "" :=
      fun other member => named other (List.mem_cons_of_mem _ member)
    obtain ⟨state, walked, built⟩ := ih rest further
    obtain ⟨next, forked, done⟩ := @forkMessage_built store above state built entry.1 entry.2 fresh further
    refine ⟨next, ?_, done⟩
    rw [List.reverse_cons, List.foldlM_append, walked]
    simp [bind, Except.bind, forked, pure, Except.pure]

theorem read_zipIdx (objects : List Fields) (copies : List (String × Fields)) :
    ((copies.map Prod.fst).zipIdx objects.length).map
      (fun entry => (entry.1, (objects ++ copies.map Prod.snd).getD entry.2 [])) = copies := by
  induction copies generalizing objects with
  | nil => rfl
  | cons copied rest ih =>
    have further := ih (objects ++ [copied.2])
    simp only [List.length_append, List.length_singleton, List.append_assoc,
      List.singleton_append] at further
    simp only [List.map_cons, List.zipIdx_cons, further]
    simp

variable {branch : List (String × Fin store.objects.length)} {state : Forking}

theorem Built.history (built : Built store branch state) :
    (state.fork_messages.mapValue (fun _ message => state.objects.getD message [])).entries =
      (upward [] (view store branch)).reverse := by
  have read := read_zipIdx store.objects (upward [] (view store branch)).reverse
  rw [← built.objects] at read
  refine Eq.trans ?_ read
  change state.fork_messages.entries.map _ = _
  rw [built.fork_messages]
  simp [view, Function.comp_def]

theorem Built.ordered (built : Built store branch state) :
    state.ordered_messages.map (fun message => state.objects.getD message []) =
      (upward [] (view store branch)).reverse.map Prod.snd := by
  rw [built.ordered_messages, ← built.history]
  change _ = (state.fork_messages.entries.map _).map _
  simp [Function.comp_def]

theorem idOf_copyOf (message : Fields) (id : String) (parent : Option String) (children : List String) :
    idOf (copyOf message id parent children) = .str id := by
  simp [idOf, copyOf]

theorem parentIdOf_copyOf (message : Fields) (id : String) (parent : Option String)
    (children : List String) :
    parentIdOf (copyOf message id parent children) = parentValue parent := by
  simp [parentIdOf, copyOf]

theorem walkParents_upward {messages : Dict String Fields} (children : List String)
    (branch : List (String × Fields))
    (stored : ∀ entry ∈ upward children branch, messages.get? entry.1 = some entry.2)
    (named : ∀ entry ∈ branch, entry.1 ≠ "") (distinct : (branch.map Prod.fst).Nodup) {fuel : Nat}
    (enough : branch.length ≤ fuel) (visited : List Json)
    (fresh : ∀ entry ∈ branch, Json.str entry.1 ∉ visited) :
    walkParents (asJson messages) fuel
        (((upward children branch).head?.map fun entry => Json.obj entry.2).getD .null) visited =
      .ok ((upward children branch).map Prod.snd) := by
  induction branch generalizing children fuel visited with
  | nil => exact walkParents_null _ fuel visited
  | cons entry above ih =>
    obtain ⟨id, message⟩ := entry
    obtain ⟨new, rest⟩ := List.nodup_cons.mp distinct
    cases fuel with
    | zero => simp at enough
    | succ fuel =>
      have truthy : (Json.obj (copyOf message id (above.head?.map Prod.fst) children)).truthy = true := by
        refine truthy_obj_of_filled fun empty => ?_
        have same := idOf_copyOf message id (above.head?.map Prod.fst) children
        rw [empty] at same
        cases same
      have unseen : Json.str id ∉ visited := fresh (id, message) List.mem_cons_self
      have parent : parentMessage (asJson messages) (parentValue (above.head?.map Prod.fst)) =
          .ok (((upward [id] above).head?.map fun entry => Json.obj entry.2).getD .null) := by
        cases above with
        | nil => rfl
        | cons next further =>
          have filled : next.1 ≠ "" := named next (by simp)
          have kept := stored (next.1, copyOf next.2 next.1 (further.head?.map Prod.fst) [id])
            (by simp [upward])
          simp [parentMessage, parentValue, filled, asJson, kept, upward, Except.map]
      have further := ih [id] (fun other member => stored other (List.mem_cons_of_mem _ member))
        (fun other member => named other (List.mem_cons_of_mem _ member)) rest
        (show above.length ≤ fuel by simpa using enough) (.str id :: visited) (fun other member => by
          rw [List.mem_cons, not_or]
          refine ⟨fun same => new ?_, fresh other (List.mem_cons_of_mem _ member)⟩
          exact List.mem_map.mpr ⟨other, member, Json.str.inj same⟩)
      simp only [upward, List.head?_cons, Option.map_some, Option.getD_some, List.map_cons]
      rw [walkParents, if_pos truthy]
      dsimp only
      rw [show getField (copyOf message id (above.head?.map Prod.fst) children) "id" = .str id from
          idOf_copyOf .., show getField (copyOf message id (above.head?.map Prod.fst) children)
          "parentId" = _ from parentIdOf_copyOf .., if_pos (show (Json.str id).hashable = true from rfl),
        if_neg unseen, parent]
      simp only [bind, Except.bind, if_neg (show ¬ Json.str id = .null by simp), further]

end Copies

def childIds (store : MessageStore) (source : String) : Nat → List String
  | 0 => []
  | n + 1 => ((ancestor store source n).map Prod.fst).toList

/-- A history of copies of exactly the source and the messages above it, each with the next one as its
only child, from which the returned list is read again; the stored messages are as they were. -/
structure IsFork (store : MessageStore) (source : String) (fork : ForkHistory) : Prop where
  currentId : fork.currentId = source
  ids : ∀ n, fork.history.keys.reverse[n]? = (ancestor store source n).map Prod.fst
  copies : ∀ n entry, ancestor store source n = some entry →
    ∃ copied, fork.history.get? entry.1 = some copied ∧ idOf copied = .str entry.1 ∧
      parentIdOf copied = parentValue ((ancestor store source (n + 1)).map Prod.fst) ∧
      getField copied "childrenIds" = .arr ((childIds store source n).map .str) ∧
      ∀ field, field ∉ ["id", "parentId", "childrenIds"] →
        copied.lookup field = (store.objects.get entry.2).lookup field
  ordered : fork.history.keys.map fork.history.get? = fork.ordered.map some
  listed : ∀ fuel ≥ fork.history.keys.length,
    get_message_list fuel (asJson fork.history) fork.currentId = .ok fork.ordered
  unchanged : ∀ message < store.objects.length, fork.objects[message]? = store.objects[message]?

theorem getElem?_upward (children : List String) (branch : List (String × Fields)) (n : Nat) :
    (upward children branch)[n]? = branch[n]?.map fun entry =>
      (entry.1, copyOf entry.2 entry.1 (branch[n + 1]?.map Prod.fst)
        (match n with | 0 => children | k + 1 => (branch[k]?.map Prod.fst).toList)) := by
  induction branch generalizing children n with
  | nil => rfl
  | cons entry above ih =>
    cases n with
    | zero => simp [upward, List.head?_eq_getElem?]
    | succ n =>
      rw [upward, List.getElem?_cons_succ, ih]
      cases n <;> simp

variable {store : MessageStore} {source : String}

theorem isFork_of_built {branch : List (String × Fin store.objects.length)} {last : Json}
    {state : Forking} (ancestors : ∀ k, ancestor store source k = branch[k]?)
    (ends : EndsAt store source branch.length last) (filled : source ≠ "")
    (built : Built store branch state) : IsFork store source
      ⟨state.objects, state.fork_messages, source, state.ordered_messages⟩ := by
  obtain ⟨distinct, named⟩ := branch_ids ancestors ends
  have entries := built.history
  generalize same : state.fork_messages.mapValue
    (fun _ message => state.objects.getD message []) = history at entries
  have stored : ∀ entry ∈ upward [] (view store branch), history.get? entry.1 = some entry.2 := by
    intro entry member
    exact Dict.mem_entries_iff.mp (by rw [entries]; exact List.mem_reverse.mpr member)
  have keys : history.keys = (branch.map Prod.fst).reverse := by
    rw [Dict.keys, Assoc.keys, entries, List.map_reverse, upward_ids]
    simp [view, Function.comp_def]
  have viewed : ∀ n, (view store branch)[n]? =
      (ancestor store source n).map fun entry => (entry.1, store.objects.get entry.2) := by
    intro n
    rw [ancestors, view, List.getElem?_map]
  refine ⟨rfl, fun n => ?_, fun n entry found => ?_, ?_, fun fuel enough => ?_, fun message inside => ?_⟩
  · simp only [ForkHistory.history, same, keys, List.reverse_reverse, ancestors, List.getElem?_map]
  · have place : (upward [] (view store branch))[n]? = some (entry.1,
        copyOf (store.objects.get entry.2) entry.1 ((ancestor store source (n + 1)).map Prod.fst)
          (childIds store source n)) := by
      rw [getElem?_upward, viewed, viewed, found]
      cases n <;> simp [childIds, viewed, Function.comp_def]
    have kept := stored _ (List.mem_of_getElem? place)
    rw [← same] at kept
    refine ⟨_, kept, idOf_copyOf _ _ _ _, parentIdOf_copyOf _ _ _ _, ?_, fun field other => ?_⟩
    · simp [copyOf]
    · simp only [List.mem_cons, List.not_mem_nil, or_false, not_or] at other
      simp [copyOf, Ne.symm other.1, Ne.symm other.2.1, Ne.symm other.2.2]
  · simp only [ForkHistory.history, ForkHistory.ordered, same, built.ordered]
    rw [Dict.keys, Assoc.keys, entries, List.map_map, List.map_map]
    exact List.map_congr_left fun entry member => stored entry (List.mem_reverse.mp member)
  · simp only [ForkHistory.history, ForkHistory.ordered, same, built.ordered, get_message_list] at enough ⊢
    have head : ((asJson history).get? source).getD .null =
        ((upward [] (view store branch)).head?.map fun entry => Json.obj entry.2).getD .null := by
      cases branch with
      | nil =>
        have missing : source ∉ history.keys := by simp [keys]
        simp [asJson, Dict.get?_eq_none.mpr missing, view, upward]
      | cons entry above =>
        obtain ⟨message_id, place, found⟩ := Option.bind_eq_some_iff.mp (ancestors 0)
        obtain ⟨rfl, -⟩ := messageAt_some found
        obtain rfl := Json.str.inj (Option.some.inj place)
        rw [asJson, Dict.get?_mapValue, stored _ List.mem_cons_self]
        rfl
    have named_view : ∀ entry ∈ view store branch, entry.1 ≠ "" := by
      intro entry member
      obtain ⟨other, inside, rfl⟩ := List.mem_map.mp member
      exact named other inside
    rw [head, walkParents_upward [] _ stored named_view (by simpa [view, Function.comp_def] using distinct)
      (by simpa [view, keys] using enough) [] (by simp), List.map_reverse]
    rfl
  · simp only [built.objects, List.getElem?_append_left inside]

def listedParent : MessageStore where
  objects := [[("parentId", .arr [.str "b"])]]
  messages_map := Dict.empty.set "a" (some 0)

def loneMessage : MessageStore where
  objects := [[("content", .str "hi")]]
  messages_map := Dict.empty.set "a" (some 0)

end OpenWebui.Utils
