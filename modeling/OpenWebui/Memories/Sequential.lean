import OpenWebui.Base.Runs
import OpenWebui.Base.Sequence
import OpenWebui.Memories.Requests

/-! A batch of memory operations beside the edits it asks for, done one after the other. -/

namespace OpenWebui.Memories

/-- An operation as it was sent, and whether it gave a path: an absent path is read as null. -/
structure SentOperation where
  form : MemoryOperationModel
  path_given : Bool
  absent : path_given = false → form.path = none

/-- A sent operation and what `validate_memory_operations` makes of it. -/
structure Accepted where
  sent : SentOperation
  operation : Operation
  validated : validateOperation sent.form = .ok operation

inductive Edit where
  | add (uuid content : String) (type : MemoryType) (path : Option String)
  | replace (id content : String) (type : Option MemoryType) (path : Option (Option String))
  | move (id : String) (path : Option String)
  | remove (id : String)

def Accepted.edit (accepted : Accepted) : Edit :=
  match accepted.operation with
  | .add uuid content type path => .add uuid content type path
  | .replace id content type path =>
    .replace id content type (if accepted.sent.path_given then some path else none)
  | .move id path => .move id path
  | .remove id => .remove id

/-- A memory of the user with this content, type and path. -/
abbrev Copy (user_id content : String) (type : MemoryType) (path : Option String)
    (memory : Memory) : Prop :=
  memory.user_id = user_id ∧ memory.content = content ∧ memory.type = type ∧ memory.path = path

section Edits

variable (user_id : String) (now : Int)

def edited (rows : Rows) : Edit → Option Rows
  | .add uuid content type path =>
    if rows.entries.any (fun row => decide (Copy user_id content type path row.2)) then some rows
    else some (rows.set uuid ⟨user_id, type, path, content, now, now⟩)
  | .replace id content type path =>
    (ownRow rows user_id id).map (fun memory => rows.set id
      { memory with
        content := content
        type := type.getD memory.type
        path := path.getD memory.path
        updated_at := now })
  | .move id path =>
    (ownRow rows user_id id).map (fun memory => rows.set id
      { memory with path := path, updated_at := now })
  | .remove id => (ownRow rows user_id id).map (fun _ => rows.erase id)

def sequential (rows : Rows) (edits : List Edit) : Option Rows := edits.foldlM (edited user_id now) rows

def stored (rows : Rows) (operations : List Operation) : Rows :=
  match apply_memory_operations user_id now rows operations with
  | .ok (after, _) => after
  | .error _ => rows

/-- The batch and each beginning of it do what the edits do one after the other, and fail where
these do; one that fails leaves the table as it was. -/
structure AtomicEdit (rows : Rows) (batch : List Accepted) : Prop where
  sequential : ∀ n, Runs.EndAlike (fun after expected => ∀ id, after.1.get? id = expected.get? id)
    (apply_memory_operations user_id now rows ((batch.take n).map Accepted.operation))
    (sequential user_id now rows ((batch.take n).map Accepted.edit))
  untouched : ∀ n raised,
    apply_memory_operations user_id now rows ((batch.take n).map Accepted.operation) = .error raised →
      stored user_id now rows ((batch.take n).map Accepted.operation) = rows

/-- The session does with the operation what it asks for: it does not find a memory that an earlier
operation removed and that is not flushed yet, and a path that is not given was not there. -/
def Settled (session : Session) (accepted : Accepted) : Prop :=
  match accepted.operation with
  | .add _ content type path =>
    (∃ id memory, session.rows.get? id = some memory ∧ Copy user_id content type path memory) →
      ∃ id memory, session.rows.get? id = some memory ∧ Copy user_id content type path memory ∧
        id ∉ session.deleting
  | .replace id _ _ _ => id ∉ session.deleting ∧ (accepted.sent.path_given = true ∨
      ∀ memory, ownRow session.rows user_id id = some memory → memory.path = none)
  | .move id _ => id ∉ session.deleting
  | .remove id => id ∉ session.deleting

end Edits

def generated : Operation → Option String
  | .add uuid _ _ _ => some uuid
  | _ => none

/-- The ids that are generated for a batch are new. -/
def Fresh (rows : Rows) (batch : List Accepted) : Prop :=
  (batch.filterMap (fun accepted => generated accepted.operation)).Nodup ∧
    ∀ uuid ∈ batch.filterMap (fun accepted => generated accepted.operation), uuid ∉ rows.keys

theorem validated_iff {sent : List SentOperation} {operations : List Operation} :
    validate_memory_operations (sent.map SentOperation.form) = .ok operations ↔
      ∃ batch : List Accepted, batch ≠ [] ∧ batch.map Accepted.sent = sent ∧
        batch.map Accepted.operation = operations := by
  have each : (sent.map SentOperation.form).mapM validateOperation = .ok operations ↔
      ∃ batch : List Accepted, batch.map Accepted.sent = sent ∧
        batch.map Accepted.operation = operations := by
    rw [Sequence.mapM_eq_ok, List.forall₂_map_left_iff]
    constructor
    · intro validated
      induction validated with
      | nil => exact ⟨[], rfl, rfl⟩
      | cons validated _ ih =>
        obtain ⟨batch, rfl, rfl⟩ := ih
        exact ⟨⟨_, _, validated⟩ :: batch, rfl, rfl⟩
    · rintro ⟨batch, rfl, rfl⟩
      rw [List.forall₂_map_left_iff, List.forall₂_map_right_iff, List.forall₂_same]
      exact fun accepted _ => accepted.validated
  cases sent with
  | nil =>
    refine iff_of_false (fun validated => by cases validated) ?_
    rintro ⟨batch, some_sent, none_sent, _⟩
    exact some_sent (List.map_eq_nil_iff.mp none_sent)
  | cons first rest =>
    refine Iff.trans each ⟨?_, ?_⟩
    · rintro ⟨batch, sent_by, becomes⟩
      refine ⟨batch, ?_, sent_by, becomes⟩
      rintro rfl
      cases sent_by
    · rintro ⟨batch, _, sent_by, becomes⟩
      exact ⟨batch, sent_by, becomes⟩

section Steps

variable {user_id : String} {now : Int} {session : Session} {rows : Rows}

/-- The memories of a session, had it been flushed. -/
def SameMemories (session : Session) (rows : Rows) : Prop :=
  ∀ id, session.flush.rows.get? id = rows.get? id

theorem get?_flush (session : Session) (id : String) : session.flush.rows.get? id =
    if id ∈ session.deleting then none else session.rows.get? id := by
  rw [Session.flush, Dict.get?_foldl_erase]

theorem ownRow_congr {first second : Rows} {id : String} (same : first.get? id = second.get? id) :
    ownRow first user_id id = ownRow second user_id id := by
  rw [ownRow, ownRow, same]

/-- What a session keeps through a batch: what it deletes is the user's, and the ids that are still
to be given are unused. -/
structure Sound (user_id : String) (session : Session) (rest : List Accepted) : Prop where
  own : ∀ id ∈ session.deleting, (ownRow session.rows user_id id).isSome = true
  distinct : (rest.filterMap (fun accepted => generated accepted.operation)).Nodup
  unused : ∀ uuid ∈ rest.filterMap (fun accepted => generated accepted.operation),
    session.unused uuid = true

theorem unused_iff {uuid : String} : session.unused uuid = true ↔
    uuid ∉ session.rows.keys ∧ ∀ id, OperationResult.deleted id ∈ session.results → id ≠ uuid := by
  rw [Session.unused, Bool.and_eq_true, decide_eq_true_eq, List.all_eq_true]
  refine and_congr_right fun _ => ⟨fun all id member => by simpa using all _ member, ?_⟩
  intro others result member
  cases result with
  | deleted id => exact decide_eq_true (others id member)
  | _ => rfl

theorem generated_cons {accepted : Accepted} {rest : List Accepted} {uuid : String}
    (member : uuid ∈ rest.filterMap (fun accepted => generated accepted.operation)) :
    uuid ∈ (accepted :: rest).filterMap (fun accepted => generated accepted.operation) := by
  rw [List.mem_filterMap] at member ⊢
  obtain ⟨later, member, gives⟩ := member
  exact ⟨later, List.mem_cons_of_mem _ member, gives⟩

theorem distinct_rest {accepted : Accepted} {rest : List Accepted}
    (distinct : ((accepted :: rest).filterMap (fun accepted => generated accepted.operation)).Nodup) :
    (rest.filterMap (fun accepted => generated accepted.operation)).Nodup :=
  distinct.sublist (List.Sublist.filterMap _ (List.sublist_cons_self accepted rest))

theorem Sound.write {accepted : Accepted} {rest : List Accepted}
    (sound : Sound user_id session (accepted :: rest)) {id : String} {memory : Memory}
    {result : OperationResult} (written : ∀ gone, result ≠ .deleted gone)
    (known : id ∈ session.rows.keys ∨ generated accepted.operation = some id) :
    Sound user_id ({ session with
      rows := session.rows.set id memory
      results := session.results ++ [result] } : Session).flush rest where
  own gone member := by cases member
  distinct := distinct_rest sound.distinct
  unused uuid member := by
    obtain ⟨absent, undeleted⟩ := unused_iff.mp (sound.unused uuid (generated_cons member))
    refine unused_iff.mpr ⟨?_, ?_⟩
    · rw [Session.flush, Dict.mem_keys_foldl_erase, Dict.mem_keys_set]
      rintro ⟨_, rfl | stored⟩
      · rcases known with present | gives
        · exact absent present
        · have twice := sound.distinct
          rw [List.filterMap_cons, gives, List.nodup_cons] at twice
          exact twice.1 member
      · exact absent stored
    · intro gone deleted
      rcases List.mem_append.mp deleted with earlier | now
      · exact undeleted gone earlier
      · exact absurd (List.mem_singleton.mp now).symm (written gone)

theorem Sound.keep {accepted : Accepted} {rest : List Accepted}
    (sound : Sound user_id session (accepted :: rest)) {gone : List String} {result : OperationResult}
    (own : ∀ id ∈ gone, (ownRow session.rows user_id id).isSome = true)
    (deletes : ∀ id, result = .deleted id → id ∈ gone) :
    Sound user_id { session with
      deleting := session.deleting ++ gone
      results := session.results ++ [result] } rest where
  own id member := (List.mem_append.mp member).elim (sound.own id) (own id)
  distinct := distinct_rest sound.distinct
  unused uuid member := by
    obtain ⟨absent, undeleted⟩ := unused_iff.mp (sound.unused uuid (generated_cons member))
    refine unused_iff.mpr ⟨absent, fun id deleted => ?_⟩
    rcases List.mem_append.mp deleted with earlier | now
    · exact undeleted id earlier
    · rintro rfl
      obtain ⟨memory, found⟩ := Option.isSome_iff_exists.mp
        (own id (deletes id (List.mem_singleton.mp now).symm))
      exact absent (Dict.mem_keys_of_get? (ownRow_eq_some.mp found).1)

theorem Sound.change {accepted : Accepted} {rest : List Accepted}
    (sound : Sound user_id session (accepted :: rest)) {id : String} {update : Memory → Memory}
    {next : Session} (done : change user_id session id update = .ok next) :
    Sound user_id next rest := by
  rw [Memories.change] at done
  split at done
  · cases done
  · rename_i memory found
    obtain rfl := Except.ok.inj done
    exact sound.write (fun gone same => by cases same)
      (Or.inl (Dict.mem_keys_of_get? (ownRow_eq_some.mp found).1))

theorem Sound.step {accepted : Accepted} {rest : List Accepted}
    (sound : Sound user_id session (accepted :: rest)) {next : Session}
    (done : applyOperation user_id now session accepted.operation = .ok next) :
    Sound user_id next rest := by
  cases operation : accepted.operation with
  | add uuid content type path =>
    rw [operation, applyOperation] at done
    split at done
    · obtain rfl := Except.ok.inj done
      rename_i existing _
      have kept : Sound user_id { session with
          deleting := session.deleting ++ []
          results := session.results ++ [.skipped existing.2] } rest :=
        sound.keep (fun id member => by cases member) (fun id same => by cases same)
      rwa [List.append_nil] at kept
    · split at done
      · obtain rfl := Except.ok.inj done
        exact sound.write (fun gone same => by cases same) (Or.inr (by rw [operation, generated]))
      · cases done
  | replace id content type path =>
    rw [operation, applyOperation] at done
    exact sound.change done
  | move id path =>
    rw [operation, applyOperation] at done
    exact sound.change done
  | remove id =>
    rw [operation, applyOperation] at done
    split at done
    · cases done
    · rename_i memory found
      obtain rfl := Except.ok.inj done
      exact sound.keep (fun other member => by rw [List.mem_singleton.mp member, found]; rfl)
        (fun other same => by cases same; exact List.mem_singleton_self id)

theorem ownRow_same (same : SameMemories session rows) (id : String) : ownRow rows user_id id =
    if id ∈ session.deleting then none else ownRow session.rows user_id id := by
  rw [← ownRow_congr (same id), Session.flush, ownRow_foldl_erase]

theorem change_alike {rest : List Accepted} (sound : Sound user_id session rest)
    (same : SameMemories session rows) {id : String} {update expected : Memory → Memory} :
    Runs.EndAlike SameMemories (change user_id session id update)
      ((ownRow rows user_id id).map (fun memory => rows.set id (expected memory))) ↔
      id ∉ session.deleting ∧
        ∀ memory, ownRow session.rows user_id id = some memory → update memory = expected memory := by
  rw [change, ownRow_same same]
  by_cases deleting : id ∈ session.deleting
  · obtain ⟨memory, found⟩ := Option.isSome_iff_exists.mp (sound.own id deleting)
    rw [found, if_pos deleting]
    exact iff_of_false (fun alike => alike.elim) (fun settled => settled.1 deleting)
  · rw [if_neg deleting]
    cases found : ownRow session.rows user_id id with
    | none => exact iff_of_true trivial ⟨deleting, fun memory absent => by cases absent⟩
    | some memory =>
      have after : ∀ query, ({ session with
          rows := session.rows.set id (update memory)
          results := session.results ++ [.updated id (update memory)] } : Session).flush.flush.rows.get?
            query = if id = query then some (update memory) else rows.get? query := by
        intro query
        rw [get?_flush, ← same query, get?_flush]
        simp only [Session.flush, List.not_mem_nil, if_false, Dict.get?_foldl_erase, Dict.get?_set]
        by_cases here : id = query
        · subst here
          simp [deleting]
        · simp [here]
      constructor
      · intro alike
        refine ⟨deleting, fun other found_other => ?_⟩
        obtain rfl := Option.some.inj found_other
        have here := alike id
        rw [after, Dict.get?_set, if_pos rfl, if_pos rfl] at here
        exact Option.some.inj here
      · rintro ⟨_, becomes⟩ query
        rw [after, Dict.get?_set, becomes memory rfl]

theorem any_copy {content : String} {type : MemoryType} {path : Option String} :
    (rows.entries.any (fun row => decide (Copy user_id content type path row.2)) = true) ↔
      ∃ id memory, rows.get? id = some memory ∧ Copy user_id content type path memory := by
  rw [List.any_eq_true]
  constructor
  · rintro ⟨⟨id, memory⟩, member, copy⟩
    exact ⟨id, memory, Dict.mem_entries_iff.mp member, of_decide_eq_true copy⟩
  · rintro ⟨id, memory, found, copy⟩
    exact ⟨(id, memory), Dict.mem_entries_iff.mpr found, decide_eq_true copy⟩

theorem copy_iff (same : SameMemories session rows) {content : String} {type : MemoryType}
    {path : Option String} :
    (∃ id memory, rows.get? id = some memory ∧ Copy user_id content type path memory) ↔
      ∃ id memory, session.rows.get? id = some memory ∧ Copy user_id content type path memory ∧
        id ∉ session.deleting := by
  refine exists_congr fun id => exists_congr fun memory => ?_
  rw [← same id, get?_flush]
  by_cases deleting : id ∈ session.deleting <;> simp [deleting]

theorem add_alike {rest : List Accepted} (sound : Sound user_id session rest)
    (same : SameMemories session rows) {uuid content : String} {type : MemoryType}
    {path : Option String} (unused : session.unused uuid = true) :
    Runs.EndAlike SameMemories (applyOperation user_id now session (.add uuid content type path))
      (edited user_id now rows (.add uuid content type path)) ↔
      ((∃ id memory, session.rows.get? id = some memory ∧ Copy user_id content type path memory) →
        ∃ id memory, session.rows.get? id = some memory ∧ Copy user_id content type path memory ∧
          id ∉ session.deleting) := by
  have absent := (unused_iff.mp unused).1
  have undeleted : uuid ∉ session.deleting := by
    intro deleting
    obtain ⟨memory, found⟩ := Option.isSome_iff_exists.mp (sound.own uuid deleting)
    exact absent (Dict.mem_keys_of_get? (ownRow_eq_some.mp found).1)
  have missing_row : rows.get? uuid = none := by
    rw [← same uuid, get?_flush, if_neg undeleted]
    exact Dict.get?_eq_none.mpr absent
  rw [applyOperation, edited]
  cases found : session.rows.entries.find? (fun row => decide (Copy user_id content type path row.2)) with
  | none =>
    have no_copy : ¬ ∃ id memory, session.rows.get? id = some memory ∧
        Copy user_id content type path memory := by
      rintro ⟨id, memory, stored, copy⟩
      have differs := List.find?_eq_none.mp found (id, memory) (Dict.mem_entries_iff.mpr stored)
      exact differs (decide_eq_true copy)
    have none_left : ¬ ∃ id memory, rows.get? id = some memory ∧
        Copy user_id content type path memory := by
      rw [copy_iff same]
      rintro ⟨id, memory, stored, copy, _⟩
      exact no_copy ⟨id, memory, stored, copy⟩
    rw [if_neg (fun any => none_left (any_copy.mp any))]
    dsimp only
    rw [if_pos unused]
    refine iff_of_true (fun query => ?_) (fun copy => absurd copy no_copy)
    rw [get?_flush, Dict.get?_set, ← same query, get?_flush]
    simp only [Session.flush, List.not_mem_nil, if_false, Dict.get?_foldl_erase, Dict.get?_set]
    by_cases here : uuid = query
    · subst here
      simp [undeleted]
    · simp [here]
  | some existing =>
    have copy : ∃ id memory, session.rows.get? id = some memory ∧
        Copy user_id content type path memory :=
      ⟨existing.1, existing.2, Dict.mem_entries_iff.mp (List.mem_of_find?_eq_some found),
        of_decide_eq_true (@List.find?_some _
          (fun row : String × Memory => decide (Copy user_id content type path row.2)) _ _ found)⟩
    rw [← copy_iff same]
    by_cases left : ∃ id memory, rows.get? id = some memory ∧ Copy user_id content type path memory
    · rw [if_pos (any_copy.mpr left)]
      exact iff_of_true same (fun _ => left)
    · rw [if_neg (fun any => left (any_copy.mp any))]
      refine iff_of_false (fun alike => ?_) (fun kept => left (kept copy))
      have here := alike uuid
      rw [Dict.get?_set, if_pos rfl] at here
      have still : session.flush.rows.get? uuid = none := (same uuid).trans missing_row
      exact absurd (still.symm.trans here) (by simp)

theorem absent_path {accepted : Accepted} {id content : String} {type : Option MemoryType}
    {path : Option String} (operation : accepted.operation = .replace id content type path)
    (absent : accepted.sent.path_given = false) : path = none := by
  have validated := accepted.validated
  rw [operation, validateOperation] at validated
  cases action : accepted.sent.form.action with
  | replace =>
    rw [action, accepted.sent.absent absent] at validated
    obtain ⟨named, _, validated⟩ := bind_eq_ok.mp validated
    obtain ⟨cleaned, _, validated⟩ := bind_eq_ok.mp validated
    obtain ⟨unread, none_read, validated⟩ := bind_eq_ok.mp validated
    injection validated with same
    injection same with _ _ _ same_path
    exact same_path.symm.trans (Except.ok.inj none_read).symm
  | add =>
    rw [action] at validated
    obtain ⟨_, _, validated⟩ := bind_eq_ok.mp validated
    obtain ⟨_, _, validated⟩ := bind_eq_ok.mp validated
    cases validated
  | move =>
    rw [action] at validated
    obtain ⟨_, _, validated⟩ := bind_eq_ok.mp validated
    obtain ⟨_, _, validated⟩ := bind_eq_ok.mp validated
    cases validated
  | remove =>
    rw [action] at validated
    obtain ⟨_, _, validated⟩ := bind_eq_ok.mp validated
    cases validated

theorem step_alike {accepted : Accepted} {rest : List Accepted}
    (sound : Sound user_id session (accepted :: rest)) (same : SameMemories session rows) :
    Runs.EndAlike SameMemories (applyOperation user_id now session accepted.operation)
      (edited user_id now rows accepted.edit) ↔ Settled user_id session accepted := by
  unfold Settled Accepted.edit
  cases operation : accepted.operation with
  | add uuid content type path =>
    refine add_alike sound same (sound.unused uuid ?_)
    exact List.mem_filterMap.mpr ⟨accepted, List.mem_cons_self, by rw [operation, generated]⟩
  | replace id content type path =>
    refine (change_alike sound same).trans (and_congr_right fun _ => ?_)
    by_cases given : accepted.sent.path_given = true
    · exact iff_of_true (fun memory _ => by simp [given]) (Or.inl given)
    · obtain rfl := absent_path operation (Bool.eq_false_iff.mpr given)
      simp [given, eq_comm]
  | move id path =>
    exact (change_alike sound same).trans (and_iff_left (fun memory _ => rfl))
  | remove id =>
    rw [applyOperation, edited, ownRow_same same]
    by_cases deleting : id ∈ session.deleting
    · obtain ⟨memory, found⟩ := Option.isSome_iff_exists.mp (sound.own id deleting)
      rw [found, if_pos deleting]
      exact iff_of_false (fun alike => alike.elim) (fun settled => settled deleting)
    · rw [if_neg deleting]
      cases found : ownRow session.rows user_id id with
      | none => exact iff_of_true trivial deleting
      | some memory =>
        refine iff_of_true (fun query => ?_) deleting
        rw [get?_flush, Dict.get?_erase, ← same query, get?_flush]
        by_cases here : id = query
        · subst here
          simp
        · have other : query ≠ id := fun back => here back.symm
          simp [here, other]

theorem yields_iff {operations : List Operation} {expected : Option Rows} :
    Runs.EndAlike (fun after expected => ∀ id, after.1.get? id = expected.get? id)
        (apply_memory_operations user_id now rows operations) expected ↔
      Runs.EndAlike SameMemories (operations.foldlM (applyOperation user_id now) ⟨rows, [], []⟩)
        expected := by
  rw [apply_memory_operations]
  cases operations.foldlM (applyOperation user_id now) ⟨rows, [], []⟩ with
  | error raised => cases expected <;> exact Iff.rfl
  | ok session => cases expected <;> exact Iff.rfl

end Steps

/-- A batch is an atomic sequential edit exactly when, at each of its operations, the session does
with it what it asks for. -/
theorem atomic_iff (user_id : String) (now : Int) (rows : Rows) (batch : List Accepted)
    (fresh : Fresh rows batch) : AtomicEdit user_id now rows batch ↔
      Runs.Always (fun earlier accepted => ∀ session,
        (earlier.map Accepted.operation).foldlM (applyOperation user_id now) ⟨rows, [], []⟩ = .ok session →
          Settled user_id session accepted) batch := by
  have sound : Sound user_id ⟨rows, [], []⟩ batch := by
    refine ⟨fun id member => (by cases member), fresh.1, fun uuid member => ?_⟩
    exact unused_iff.mpr ⟨fresh.2 uuid member, fun id deleted => by cases deleted⟩
  have lockstep := Runs.endAlike_iff
    (fun session accepted rest next sound done => Sound.step sound done)
    (fun session expected accepted rest sound same => @step_alike user_id now session expected accepted
      rest sound same) sound (fun id => rfl : SameMemories ⟨rows, [], []⟩ rows)
  simp only [List.foldlM_map]
  rw [← lockstep]
  constructor
  · intro atomic n
    have yields := yields_iff.mp (atomic.sequential n)
    rwa [sequential, List.foldlM_map, List.foldlM_map] at yields
  · intro alike
    refine ⟨fun n => yields_iff.mpr ?_, fun n raised failed => by rw [stored, failed]⟩
    rw [sequential, List.foldlM_map, List.foldlM_map]
    exact alike n

/-- A replace of the memory `m` with a new content, and with a path or without. -/
def replacing (path : Option String) (path_given : Bool) (absent : path_given = false → path = none)
    (operation : Operation)
    (validated : validateOperation ⟨.replace, some "m", some "tea", none, path, ""⟩ = .ok operation) :
    Accepted := ⟨⟨⟨.replace, some "m", some "tea", none, path, ""⟩, path_given, absent⟩, operation, validated⟩

def filed : Rows := Dict.ofEntries [("m", ⟨"u", .user, some "drinks", "coffee", 0, 0⟩)]

def refiled : Accepted :=
  replacing (some "drinks") true (by decide) (.replace "m" "tea" none (some "drinks")) rfl

def reworded : Accepted := replacing none false (fun _ => rfl) (.replace "m" "tea" none none) rfl

theorem refiled_atomic : AtomicEdit "u" 1 filed [refiled] :=
  (atomic_iff "u" 1 filed [refiled] ⟨by decide, by decide⟩).mpr (by
    rw [Runs.always_cons]
    refine ⟨fun session reached => ?_, Runs.always_nil _⟩
    cases reached
    exact ⟨by decide, Or.inl rfl⟩)

/-- The memory loses its path. -/
theorem reworded_unfiled : ¬ AtomicEdit "u" 1 filed [reworded] := by
  intro atomic
  have after := atomic.sequential 1 "m"
  revert after
  decide

end OpenWebui.Memories
