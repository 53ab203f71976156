import OpenWebui.Base.Runs
import OpenWebui.Memories.Requests

/-! A batch is mirrored: what its results write and delete is what the rows have become. -/

namespace OpenWebui.Memories

def deletedIds (results : List OperationResult) : List String :=
  results.filterMap (fun result =>
    match result with
    | .deleted id => some id
    | _ => none)

/-- The session of a batch is ahead of the collection by the results so far: but for what they
delete, the rows are what the collection will hold. -/
structure Ahead (user_id : String) (collection : Collection) (session : Session) : Prop where
  agree : ∀ items, upsertItems session.results = .ok items → ∀ id, id ∉ deletedIds session.results →
    Agree user_id session.rows (upsert collection items) id
  marked : ∀ id ∈ session.deleting, id ∈ deletedIds session.results
  gone : ∀ id ∈ deletedIds session.results,
    id ∈ session.deleting ∨ ownRow session.rows user_id id = none

section Batches

variable {user_id : String} {now : Int} {collection : Collection} {session : Session}

theorem upsertItems_append (first second : List OperationResult) :
    upsertItems (first ++ second) =
      (upsertItems first).bind (fun items =>
        (upsertItems second).map (fun more => items ++ more)) := by
  induction first with
  | nil =>
    rw [List.nil_append, upsertItems]
    cases upsertItems second <;> rfl
  | cons result rest ih =>
    have written : ∀ id memory, ((itemOf memory).bind fun item =>
        (upsertItems (rest ++ second)).bind fun items => .ok ((id, item) :: items)) =
        (((itemOf memory).bind fun item => (upsertItems rest).bind fun items =>
          Except.ok ((id, item) :: items)).bind fun items =>
            (upsertItems second).map fun more => items ++ more) := by
      intro id memory
      rw [ih]
      cases itemOf memory with
      | error raised => rfl
      | ok item =>
        cases upsertItems rest with
        | error raised => rfl
        | ok items =>
          cases upsertItems second <;> rfl
    cases result with
    | skipped memory => exact ih
    | deleted id => exact ih
    | created id memory => exact written id memory
    | updated id memory => exact written id memory

theorem deletedIds_append (results : List OperationResult) (result : OperationResult) :
    deletedIds (results ++ [result]) = deletedIds results ++ deletedIds [result] :=
  List.filterMap_append

theorem Ahead.flush (ahead : Ahead user_id collection session) :
    Ahead user_id collection session.flush where
  agree items written id kept := by
    have unmarked : id ∉ session.deleting := fun member => kept (ahead.marked id member)
    unfold Agree
    simp only [Session.flush, ownRow_foldl_erase, if_neg unmarked]
    exact ahead.agree items written id kept
  marked id member := by cases member
  gone id member := by
    right
    rw [Session.flush, ownRow_foldl_erase]
    split
    · rfl
    · rename_i unmarked
      exact (ahead.gone id member).resolve_left unmarked

theorem Ahead.write (ahead : Ahead user_id collection session) {id : String} {memory : Memory}
    (own : memory.user_id = user_id) {result : OperationResult}
    (known : result = .created id memory ∨ result = .updated id memory)
    (unused : id ∈ deletedIds session.results → id ∈ session.deleting) :
    Ahead user_id collection { session with
      rows := session.rows.set id memory
      results := session.results ++ [result] } := by
  have nothing : deletedIds [result] = [] := by
    rcases known with rfl | rfl <;> rfl
  have same : deletedIds (session.results ++ [result]) = deletedIds session.results := by
    rw [deletedIds_append, nothing, List.append_nil]
  refine ⟨?_, ?_, ?_⟩
  · intro items written query kept
    rw [same] at kept
    rw [upsertItems_append] at written
    obtain ⟨before, earlier, written⟩ := bind_eq_ok.mp written
    obtain ⟨more, last, rfl⟩ := map_eq_ok.mp written
    have single : ∃ item, itemOf memory = .ok item ∧ more = [(id, item)] := by
      rcases known with rfl | rfl
      · obtain ⟨item, item_of, same⟩ := bind_eq_ok.mp last
        exact ⟨item, item_of, (Except.ok.inj same).symm⟩
      · obtain ⟨item, item_of, same⟩ := bind_eq_ok.mp last
        exact ⟨item, item_of, (Except.ok.inj same).symm⟩
    obtain ⟨item, item_of, rfl⟩ := single
    rw [upsert_append]
    exact agree_set own item_of (fun _ => ahead.agree before earlier query kept)
  · intro query member
    rw [same]
    exact ahead.marked query member
  · intro query member
    rw [same] at member
    by_cases written : id = query
    · exact Or.inl (written ▸ unused (written ▸ member))
    · rcases ahead.gone query member with marked | absent
      · exact Or.inl marked
      · right
        rw [ownRow_set, if_neg written]
        exact absent

theorem Ahead.change (ahead : Ahead user_id collection session) {id : String}
    {update : Memory → Memory} (keeps : ∀ memory, (update memory).user_id = memory.user_id)
    {next : Session} (done : change user_id session id update = .ok next) :
    Ahead user_id collection next := by
  rw [Memories.change] at done
  split at done
  · cases done
  · rename_i memory found
    obtain rfl := Except.ok.inj done
    have own := (ownRow_eq_some.mp found).2
    refine (ahead.write ((keeps memory).trans own) (Or.inr rfl) ?_).flush
    intro member
    rcases ahead.gone id member with marked | absent
    · exact marked
    · rw [found] at absent
      cases absent

theorem Ahead.step (ahead : Ahead user_id collection session) {operation : Operation}
    {next : Session} (done : applyOperation user_id now session operation = .ok next) :
    Ahead user_id collection next := by
  cases operation with
  | add uuid content type path =>
    rw [applyOperation] at done
    split at done
    · rename_i existing _
      obtain rfl := Except.ok.inj done
      have same : deletedIds (session.results ++ [.skipped existing.2]) =
          deletedIds session.results := by
        rw [deletedIds_append]
        exact List.append_nil _
      refine ⟨?_, ?_, ?_⟩
      · intro items written id kept
        rw [same] at kept
        rw [upsertItems_append] at written
        obtain ⟨before, earlier, written⟩ := bind_eq_ok.mp written
        obtain ⟨more, last, rfl⟩ := map_eq_ok.mp written
        obtain rfl := Except.ok.inj last
        rw [List.append_nil]
        exact ahead.agree before earlier id kept
      · intro id member
        rw [same]
        exact ahead.marked id member
      · intro id member
        rw [same] at member
        exact ahead.gone id member
    · dsimp only at done
      split at done
      · rename_i unused
        obtain rfl := Except.ok.inj done
        refine (ahead.write rfl (Or.inl rfl) ?_).flush
        intro member
        rw [Session.unused, Bool.and_eq_true, List.all_eq_true] at unused
        obtain ⟨result, listed, same⟩ := List.mem_filterMap.mp member
        have apart := unused.2 result listed
        cases result with
        | deleted id =>
          obtain rfl := Option.some.inj same
          exact absurd rfl (of_decide_eq_true apart)
        | skipped _ => cases same
        | created _ _ => cases same
        | updated _ _ => cases same
      · cases done
  | replace id content type path =>
    exact @Ahead.change _ _ _ ahead id (fun memory =>
      { memory with
        content := content
        type := type.getD memory.type
        path := path
        updated_at := now }) (fun _ => rfl) next done
  | move id path =>
    exact @Ahead.change _ _ _ ahead id (fun memory =>
      { memory with path := path, updated_at := now }) (fun _ => rfl) next done
  | remove id =>
    rw [applyOperation] at done
    split at done
    · cases done
    · obtain rfl := Except.ok.inj done
      have grown : deletedIds (session.results ++ [.deleted id]) =
          deletedIds session.results ++ [id] := by
        rw [deletedIds_append]
        rfl
      refine ⟨?_, ?_, ?_⟩
      · intro items written query kept
        rw [grown, List.mem_append, not_or] at kept
        rw [upsertItems_append] at written
        obtain ⟨before, earlier, written⟩ := bind_eq_ok.mp written
        obtain ⟨more, last, rfl⟩ := map_eq_ok.mp written
        obtain rfl := Except.ok.inj last
        rw [List.append_nil]
        exact ahead.agree before earlier query kept.1
      · intro query member
        rw [grown, List.mem_append]
        rcases List.mem_append.mp member with before | last
        · exact Or.inl (ahead.marked query before)
        · exact Or.inr last
      · intro query member
        rw [grown, List.mem_append] at member
        rcases member with before | last
        · rcases ahead.gone query before with marked | absent
          · exact Or.inl (List.mem_append_left _ marked)
          · exact Or.inr absent
        · exact Or.inl (List.mem_append_right _ last)

theorem Ahead.run (ahead : Ahead user_id collection session) {operations : List Operation}
    {final : Session} (done : operations.foldlM (applyOperation user_id now) session = .ok final) :
    Ahead user_id collection final := by
  induction operations generalizing session with
  | nil =>
    obtain rfl := Except.ok.inj done
    exact ahead
  | cons operation rest ih =>
    rw [List.foldlM_cons] at done
    obtain ⟨next, first, later⟩ := bind_eq_ok.mp done
    exact ih (ahead.step first) later

theorem ahead_start {stores : Stores} (mirrors : Mirrors user_id stores) :
    Ahead user_id stores.collection ⟨stores.rows, [], []⟩ where
  agree items written id _ := by
    obtain rfl := Except.ok.inj written
    exact mirrors_iff.mp mirrors id
  marked id member := by cases member
  gone id member := by cases member

/-- An id that a validated operation removes is not empty. -/
def Named : Operation → Prop
  | .remove id => id ≠ ""
  | _ => True

theorem named_of_validated {operation : MemoryOperationModel} {validated : Operation}
    (done : validateOperation operation = .ok validated) : Named validated := by
  unfold validateOperation at done
  split at done
  · obtain ⟨content, _, done⟩ := bind_eq_ok.mp done
    obtain ⟨path, _, same⟩ := bind_eq_ok.mp done
    obtain rfl := Except.ok.inj same
    trivial
  · obtain ⟨id, _, done⟩ := bind_eq_ok.mp done
    obtain ⟨content, _, done⟩ := bind_eq_ok.mp done
    obtain ⟨path, _, same⟩ := bind_eq_ok.mp done
    obtain rfl := Except.ok.inj same
    trivial
  · obtain ⟨id, _, done⟩ := bind_eq_ok.mp done
    obtain ⟨path, _, same⟩ := bind_eq_ok.mp done
    obtain rfl := Except.ok.inj same
    trivial
  · obtain ⟨id, required, same⟩ := bind_eq_ok.mp done
    obtain rfl := Except.ok.inj same
    unfold requireId at required
    split at required
    · rename_i found
      obtain rfl := Except.ok.inj required
      have filled : _ ≠ "" := of_decide_eq_true (Option.filter_eq_some_iff.mp found).2
      exact filled
    · cases required

theorem results_of_step {operation : Operation} {next : Session}
    (done : applyOperation user_id now session operation = .ok next) (named : Named operation) :
    ∃ result, next.results = session.results ++ [result] ∧ result ≠ .deleted "" := by
  have changed : ∀ id update, change user_id session id update = .ok next →
      ∃ result, next.results = session.results ++ [result] ∧ result ≠ .deleted "" := by
    intro id update done
    unfold change at done
    split at done
    · cases done
    · obtain rfl := Except.ok.inj done
      refine ⟨_, rfl, ?_⟩
      intro same
      cases same
  cases operation with
  | add uuid content type path =>
    rw [applyOperation] at done
    split at done
    · obtain rfl := Except.ok.inj done
      refine ⟨_, rfl, ?_⟩
      intro same
      cases same
    · dsimp only at done
      split at done
      · obtain rfl := Except.ok.inj done
        refine ⟨_, rfl, ?_⟩
        intro same
        cases same
      · cases done
  | replace id content type path => exact changed id _ done
  | move id path => exact changed id _ done
  | remove id =>
    rw [applyOperation] at done
    split at done
    · cases done
    · obtain rfl := Except.ok.inj done
      refine ⟨_, rfl, ?_⟩
      intro same
      exact named (OperationResult.deleted.inj same)

theorem deleteIds_eq {results : List OperationResult}
    (named : OperationResult.deleted "" ∉ results) : deleteIds results = deletedIds results := by
  refine List.filterMap_congr ?_
  intro result member
  cases result with
  | deleted id =>
    have filled : id ≠ "" := fun same => named (same ▸ member)
    exact if_neg filled
  | skipped _ => rfl
  | created _ _ => rfl
  | updated _ _ => rfl

theorem deleted_named {operations : List Operation} {final : Session}
    (done : operations.foldlM (applyOperation user_id now) session = .ok final)
    (named : ∀ operation ∈ operations, Named operation)
    (starts : OperationResult.deleted "" ∉ session.results) :
    OperationResult.deleted "" ∉ final.results := by
  induction operations generalizing session with
  | nil =>
    obtain rfl := Except.ok.inj done
    exact starts
  | cons operation rest ih =>
    rw [List.foldlM_cons] at done
    obtain ⟨next, first, later⟩ := bind_eq_ok.mp done
    obtain ⟨result, grown, filled⟩ := results_of_step first (named operation List.mem_cons_self)
    refine ih later (fun other member => named other (List.mem_cons_of_mem operation member)) ?_
    rw [grown, List.mem_append, List.mem_singleton]
    rintro (before | same)
    · exact starts before
    · exact filled same.symm

theorem mirrors_update_memories {stores after : Stores} (mirrors : Mirrors user_id stores)
    {operations : List MemoryOperationModel}
    (done : update_memories user_id now stores operations = .ok after) : Mirrors user_id after := by
  obtain ⟨validated, valid, done⟩ := bind_eq_ok.mp done
  obtain ⟨⟨rows, results⟩, applied, done⟩ := bind_eq_ok.mp done
  obtain ⟨items, written, same⟩ := bind_eq_ok.mp done
  obtain rfl := Except.ok.inj same
  obtain ⟨final, looped, same⟩ := map_eq_ok.mp applied
  obtain ⟨rfl, rfl⟩ := Prod.mk.inj same
  have named : ∀ operation ∈ validated, Named operation := by
    unfold validate_memory_operations at valid
    split at valid
    · cases valid
    · intro operation member
      have answered : Except.ok operation ∈ operations.map validateOperation := by
        rw [map_of_mapM valid]
        exact List.mem_map.mpr ⟨operation, member, rfl⟩
      obtain ⟨_, _, validates⟩ := List.mem_map.mp answered
      exact named_of_validated validates
  have ahead := ((ahead_start mirrors).run looped).flush
  have deleted := deleteIds_eq (deleted_named looped named List.not_mem_nil)
  rw [mirrors_iff]
  intro id
  by_cases gone : id ∈ deletedIds final.results
  · have absent : ownRow final.flush.rows user_id id = none :=
      (ahead.gone id gone).resolve_left List.not_mem_nil
    unfold Agree
    simp only [deleted, deleteItems, Dict.get?_foldl_erase, if_pos gone, absent]
    refine ⟨?_, fun _ => trivial⟩
    intro memory found
    cases found
  · have agree := ahead.agree items written id gone
    unfold Agree at agree ⊢
    simp only [deleted, deleteItems, Dict.get?_foldl_erase, if_neg gone]
    exact agree

end Batches

end OpenWebui.Memories

namespace OpenWebui.Memories

section Run

variable {user_id : String} {now : Int}

theorem mirrors_add_memory {stores after : Stores} (mirrors : Mirrors user_id stores)
    {uuid content : String} {type : MemoryType} {path : Option String}
    (done : add_memory user_id now stores uuid content type path = .ok after) :
    Mirrors user_id after := by
  obtain ⟨cleaned, _, done⟩ := bind_eq_ok.mp done
  obtain ⟨clean_path, _, done⟩ := bind_eq_ok.mp done
  dsimp only at done
  split at done
  · cases done
  · obtain ⟨item, written, same⟩ := bind_eq_ok.mp done
    obtain rfl := Except.ok.inj same
    exact mirrors_set mirrors rfl written

/-- The request does not change the type of a memory alone, and what is written of it then. -/
def Announced (user_id : String) (now : Int) (stores : Stores) : Request → Prop
  | .update memory_id none (some type) none => ∀ memory,
    ownRow stores.rows user_id memory_id = some memory →
      memory.type = type ∧ memory.updated_at = now
  | _ => True

theorem normalize_some (type : MemoryType) : normalize_memory_type (some type) = type := by
  cases type <;> rfl

theorem update_memory_by_id_ok {stores after : Stores} {memory_id : String}
    {content : Option String} {type : Option MemoryType} {path : Option String}
    (done : update_memory_by_id user_id now stores memory_id content type path = .ok after) :
    ∃ memory updated, ownRow stores.rows user_id memory_id = some memory ∧
      updated.user_id = user_id ∧
      ((∃ item, itemOf updated = .ok item ∧ (content ≠ none ∨ path ≠ none) ∧
          after = ⟨stores.rows.set memory_id updated, upsert stores.collection [(memory_id, item)]⟩) ∨
        (∃ kind, content = none ∧ path = none ∧ type = some kind ∧
          updated = { memory with type := kind, updated_at := now } ∧
          after = ⟨stores.rows.set memory_id updated, stores.collection⟩)) := by
  obtain ⟨cleaned, cleans, cleaning⟩ := bind_eq_ok.mp done
  obtain ⟨clean_path, _, finished⟩ := bind_eq_ok.mp cleaning
  split at finished
  · cases finished
  · rename_i asked
    split at finished
    · cases finished
    · rename_i memory found
      have own := (ownRow_eq_some.mp found).2
      refine ⟨memory, updatedMemory now memory cleaned type clean_path path.isSome, found, own, ?_⟩
      dsimp only at finished
      split at finished
      · rename_i told
        obtain ⟨item, written, same⟩ := bind_eq_ok.mp finished
        rw [Bool.or_eq_true, Option.isSome_iff_ne_none, Option.isSome_iff_ne_none] at told
        exact Or.inl ⟨item, written, told, (Except.ok.inj same).symm⟩
      · rename_i silent
        rw [Bool.or_eq_true, not_or, Option.not_isSome_iff_eq_none,
          Option.not_isSome_iff_eq_none] at silent
        obtain ⟨rfl, rfl⟩ := silent
        obtain rfl := Except.ok.inj cleans
        cases type with
        | none => exact absurd ⟨rfl, rfl, rfl⟩ asked
        | some kind =>
          have changed : updatedMemory now memory none (some kind) clean_path
              (none : Option String).isSome = { memory with type := kind, updated_at := now } := by
            simp [updatedMemory, normalize_some]
          exact Or.inr ⟨kind, rfl, rfl, rfl, changed, (Except.ok.inj finished).symm⟩

theorem mirrors_silent_iff {stores : Stores} (mirrors : Mirrors user_id stores) {id : String}
    {memory updated : Memory} (found : ownRow stores.rows user_id id = some memory)
    (own : updated.user_id = user_id) (content : updated.content = memory.content)
    (created : updated.created_at = memory.created_at) :
    Mirrors user_id ⟨stores.rows.set id updated, stores.collection⟩ ↔ updated = memory := by
  obtain ⟨item, written, stored⟩ := mirrors.stored id memory found
  have placed : ownRow (stores.rows.set id updated) user_id id = some updated := by
    rw [ownRow_set, if_pos rfl, Option.filter_some, if_pos (decide_eq_true own)]
  constructor
  · intro after
    obtain ⟨later, rewritten, same⟩ := after.stored id updated placed
    obtain rfl := Option.some.inj (stored.symm.trans same)
    obtain ⟨text, _, rfl⟩ := map_eq_ok.mp written
    obtain ⟨other, _, equal⟩ := map_eq_ok.mp rewritten
    have metadata := congrArg Item.metadata equal
    obtain ⟨_, times, types, paths⟩ := Metadata.mk.inj metadata
    have owner := (ownRow_eq_some.mp found).2
    cases updated
    cases memory
    subst owner own content created times types paths
    rfl
  · rintro rfl
    refine mirrors_iff.mpr (fun query => ?_)
    have agree := mirrors_iff.mp mirrors query
    unfold Agree at agree ⊢
    simp only [ownRow_set, Option.filter_some, decide_eq_true own, if_true]
    by_cases same : id = query
    · subst same
      rw [if_pos rfl, ← found]
      exact agree
    · rw [if_neg same]
      exact agree

theorem mirrors_handle_iff {stores after : Stores} (mirrors : Mirrors user_id stores)
    {request : Request} (done : handle user_id now stores request = .ok after) :
    Mirrors user_id after ↔ Announced user_id now stores request := by
  cases request with
  | add uuid content type path => exact iff_of_true (mirrors_add_memory mirrors done) trivial
  | batch operations => exact iff_of_true (mirrors_update_memories mirrors done) trivial
  | delete memory_id =>
    obtain rfl := Except.ok.inj done
    exact iff_of_true (mirrors_delete_memory_by_id mirrors memory_id) trivial
  | delete_all =>
    obtain rfl := Except.ok.inj done
    exact iff_of_true (mirrors_delete_all stores) trivial
  | reset => exact iff_of_true (mirrors_reset done) trivial
  | update memory_id content type path =>
    obtain ⟨memory, updated, found, own, written | silent⟩ := update_memory_by_id_ok done
    · obtain ⟨item, item_of, told, rfl⟩ := written
      refine iff_of_true (mirrors_set mirrors own item_of) ?_
      cases content with
      | some content => trivial
      | none =>
        cases path with
        | some path => cases type <;> trivial
        | none => simp at told
    · obtain ⟨kind, rfl, rfl, rfl, rfl, rfl⟩ := silent
      rw [mirrors_silent_iff mirrors found own rfl rfl]
      constructor
      · intro same other again
        obtain rfl := Option.some.inj (found.symm.trans again)
        exact ⟨(congrArg Memory.type same).symm, (congrArg Memory.updated_at same).symm⟩
      · intro announced
        obtain ⟨kept, time⟩ := announced memory found
        cases memory
        subst kept time
        rfl

def step (user_id : String) (stores : Stores) (event : Int × Request) : Option Stores :=
  (handle user_id event.1 stores event.2).toOption

/-- The collection mirrors the rows after each of the successful requests of a run exactly when
each of them is announced. -/
theorem memories_mirrored_iff {stores final : Stores} (mirrors : Mirrors user_id stores)
    {run : List (Int × Request)} (ran : run.foldlM (step user_id) stores = some final) :
    Runs.Throughout (Mirrors user_id) (step user_id) stores run ↔
      Runs.Always (fun earlier event => ∀ old, earlier.foldlM (step user_id) stores = some old →
        Announced user_id event.1 old event.2) run := by
  refine @Runs.throughout_iff _ _ _ (fun old event => Announced user_id event.1 old event.2) _
    ?_ _ _ _ mirrors ran
  intro old event new mirrors acted
  refine mirrors_handle_iff mirrors ?_
  unfold step at acted
  cases handled : handle user_id event.1 old event.2 with
  | error raised =>
    rw [handled] at acted
    cases acted
  | ok after =>
    rw [handled] at acted
    exact congrArg Except.ok (Option.some.inj acted)

end Run

def editedRun : List (Int × Request) :=
  [(1, .add "m" "tea" .context none), (2, .update "m" (some "green tea") (some .user) none)]

theorem mirrors_empty (user_id : String) : Mirrors user_id ⟨Dict.empty, Dict.empty⟩ where
  stored id memory found := by cases found
  only id _ := rfl

theorem edited_memory_mirrored :
    Runs.Throughout (Mirrors "ann") (step "ann") ⟨Dict.empty, Dict.empty⟩ editedRun := by
  obtain ⟨final, ran⟩ := Option.isSome_iff_exists.mp
    (by decide +kernel : (editedRun.foldlM (step "ann") ⟨Dict.empty, Dict.empty⟩).isSome = true)
  refine (memories_mirrored_iff (mirrors_empty "ann") ran).mpr ?_
  unfold editedRun
  rw [Runs.always_cons, Runs.always_cons]
  refine ⟨fun old _ => trivial, fun old _ => trivial, Runs.always_nil _⟩

def retypedRun : List (Int × Request) :=
  [(1, .add "m" "tea" .context none), (2, .update "m" none (some .user) none)]

theorem retyped_memory_not_mirrored :
    ¬ ∀ (user_id : String) (stores final : Stores) (run : List (Int × Request)),
      Mirrors user_id stores → run.foldlM (step user_id) stores = some final →
        Mirrors user_id final := by
  intro always
  obtain ⟨final, ran⟩ := Option.isSome_iff_exists.mp
    (by decide +kernel : (retypedRun.foldlM (step "ann") ⟨Dict.empty, Dict.empty⟩).isSome = true)
  have mirrors := always "ann" _ final retypedRun (mirrors_empty "ann") ran
  have both : ((retypedRun.foldlM (step "ann") ⟨Dict.empty, Dict.empty⟩).map (fun stores =>
      ((ownRow stores.rows "ann" "m").map Memory.type,
        (stores.collection.get? "m").map (fun item => item.metadata.type)))) =
          some (some .user, some .context) := by
    decide +kernel
  rw [ran] at both
  obtain ⟨typed, indexed⟩ := Prod.mk.inj (Option.some.inj both)
  obtain ⟨memory, found, kind⟩ := Option.map_eq_some_iff.mp typed
  obtain ⟨item, written, stored⟩ := mirrors.stored "m" memory found
  rw [stored] at indexed
  obtain ⟨text, _, rfl⟩ := map_eq_ok.mp written
  rw [Option.map_some, memory_metadata, kind] at indexed
  cases indexed

end OpenWebui.Memories
