import OpenWebui.Base.Runs
import OpenWebui.Ydoc.Documents
import OpenWebui.Ydoc.NothingLost

/-! Whatever way the id of a note is spelled: its document is read and changed after the check on
that note, by sessions that passed it, and saved after a check for the right to write. -/

namespace OpenWebui.Ydoc

universe u v

variable {υ : Type u} {σ : Type v} [SemilatticeSup σ] [OrderBot σ]

/-- An id of a note, in which no separator is. -/
structure Plain (note_id : String) : Prop where
  colon : ':' ∉ note_id.toList
  underscore : '_' ∉ note_id.toList

def separator (char : Char) : Char := if char = ':' then '_' else char

theorem storageKey_toList (document_id : String) :
    (storageKey document_id).toList = document_id.toList.map separator := by
  rw [storageKey, String.toList_ofList]
  rfl

theorem storageKey_inj {first second : String} : storageKey first = storageKey second ↔
    first.toList.map separator = second.toList.map separator := by
  rw [← String.toList_inj, storageKey_toList, storageKey_toList]

theorem separator_eq {char image : Char} (same : separator char = image) (plain : image ≠ '_') :
    char = image := by
  unfold separator at same
  split at same
  · exact absurd same.symm plain
  · exact same

theorem separator_underscore {char : Char} (same : separator char = '_') :
    char = ':' ∨ char = '_' := by
  unfold separator at same
  split at same
  · rename_i colon
    exact Or.inl colon
  · exact Or.inr same

theorem map_separator_eq {text image : List Char} (same : text.map separator = image)
    (plain : '_' ∉ image) : text = image := by
  induction text generalizing image with
  | nil => exact same
  | cons char rest ih =>
    obtain ⟨first, later, rfl⟩ : ∃ first later, image = first :: later :=
      ⟨_, _, same.symm⟩
    obtain ⟨head, tail⟩ := List.cons.inj same
    rw [separator_eq head (fun here => plain (here ▸ List.mem_cons_self)),
      ih tail (fun there => plain (List.mem_cons_of_mem _ there))]

theorem map_separator_plain {text : List Char} (plain : ':' ∉ text) : text.map separator = text := by
  induction text with
  | nil => rfl
  | cons char rest ih =>
    have apart : char ≠ ':' := fun here => plain (here ▸ List.mem_cons_self)
    rw [List.map_cons, ih (fun there => plain (List.mem_cons_of_mem _ there)), separator,
      if_neg apart]

def documentOf (note_id : String) : String := String.ofList (noteMark ++ note_id.toList)

theorem documentOf_toList (note_id : String) :
    (documentOf note_id).toList = noteMark ++ note_id.toList := String.toList_ofList

theorem normalize_of_key {document_id note_id : String} (plain : Plain note_id)
    (same : storageKey document_id = storageKey (documentOf note_id)) :
    normalize_document_id document_id = documentOf note_id := by
  rw [storageKey_inj, documentOf_toList, List.map_append, map_separator_plain plain.colon] at same
  obtain ⟨mark, rest, split, front, back⟩ := List.map_eq_append_iff.mp same
  obtain rfl := map_separator_eq back plain.underscore
  have five : mark.length = 5 := by
    have lengths := congrArg List.length front
    rw [List.length_map] at lengths
    exact lengths
  have marked : mark = noteMark ∨ mark = ['n', 'o', 't', 'e', '_'] := by
    obtain ⟨word, last, shape, letters, sep⟩ := List.map_eq_append_iff.mp
      (front.trans (by rfl : noteMark.map separator = ['n', 'o', 't', 'e'] ++ ['_']))
    obtain rfl := map_separator_eq letters (by decide)
    obtain ⟨char, nothing, rfl, under, none⟩ := List.map_eq_cons_iff.mp sep
    obtain rfl := List.map_eq_nil_iff.mp none
    rcases separator_underscore under with rfl | rfl
    · exact Or.inl shape
    · exact Or.inr shape
  unfold normalize_document_id documentOf
  rcases marked with rfl | rfl
  · rw [if_neg (by rw [split]; simp [noteMark]), ← split, String.ofList_toList]
  · rw [if_pos (by rw [split]; simp), split]
    rfl

theorem split_plain {text : List Char} (plain : ':' ∉ text) : Text.split ':' text = [text] := by
  induction text with
  | nil => rfl
  | cons char rest ih =>
    have apart : char ≠ ':' := fun here => plain (here ▸ List.mem_cons_self)
    rw [Text.split, if_neg apart, ih (fun there => plain (List.mem_cons_of_mem _ there))]

theorem isNote_documentOf (note_id : String) : isNote (documentOf note_id) = true := by
  rw [isNote, documentOf_toList]
  simp

theorem noteId_documentOf {note_id : String} (plain : Plain note_id) :
    noteId (documentOf note_id) = note_id := by
  rw [noteId, documentOf_toList]
  simp [noteMark, Text.split, split_plain plain.colon]

namespace Documents

variable {documents : Documents υ} {merging : Merging υ σ}

theorem check_documentOf {note_id : String} (plain : Plain note_id) (user : SocketUser)
    (permission : String) :
    documents.check user (documentOf note_id) permission =
      documents.permits user note_id permission := by
  rw [check, isNote_documentOf, noteId_documentOf plain, Bool.not_true, Bool.false_or]

/-- The check on the note succeeds for the user of the session. -/
def Passes (documents : Documents υ) (sid note_id permission : String) : Prop :=
  ∃ user, documents.session_pool.get? sid = some user ∧
    documents.permits user note_id permission = true

theorem writer_passes {sid note_id : String} (plain : Plain note_id)
    (writes : (documents.writer? sid (documentOf note_id)).isSome = true) :
    documents.Passes sid note_id "write" := by
  unfold writer? at writes
  split at writes
  · obtain ⟨user, found⟩ := Option.isSome_iff_exists.mp writes
    obtain ⟨known, checked⟩ := Option.filter_eq_some_iff.mp found
    rw [check_documentOf plain] at checked
    exact ⟨user, known, checked⟩
  · cases writes

theorem join_memory (sid document_id : String) :
    (documents.ydoc_document_join sid document_id).memory = documents.memory := by
  unfold ydoc_document_join
  split
  · rfl
  · dsimp only
    split <;> rfl

theorem join_passes {sid document_id note_id : String} (plain : Plain note_id)
    (named : normalize_document_id document_id = documentOf note_id)
    (sent : documents.delivered (.join sid document_id) ≠ []) :
    documents.Passes sid note_id "read" := by
  unfold delivered at sent
  dsimp only at sent
  rw [named] at sent
  split at sent
  · exact absurd rfl sent
  · rename_i user known
    split at sent
    · rename_i checked
      rw [check_documentOf plain] at checked
      exact ⟨user, known, checked⟩
    · exact absurd rfl sent

theorem update_passes {sid document_id note_id : String} {update : υ} {data : Fields}
    {stopped : Bool} (plain : Plain note_id)
    (named : normalize_document_id document_id = documentOf note_id)
    (done : documents.delivered (.update sid document_id update data stopped) ≠ [] ∨
      (documents.step merging (.update sid document_id update data stopped)).memory ≠
        documents.memory) : documents.Passes sid note_id "write" := by
  refine writer_passes plain ?_
  cases writer : documents.writer? sid (documentOf note_id) with
  | some user => rfl
  | none =>
    rcases done with sent | changed
    · unfold delivered at sent
      dsimp only at sent
      rw [named, writer] at sent
      exact absurd rfl sent
    · unfold step yjs_document_update at changed
      dsimp only at changed
      rw [named, writer] at changed
      exact absurd rfl changed

theorem save_passes {position : Nat} {note_id : String}
    (changed : (documents.step merging (.save position)).note.get? note_id ≠
      documents.note.get? note_id) :
    ∃ save, documents.saving[position]? = some save ∧
      documents.permits save.user note_id "write" = true := by
  unfold step at changed
  dsimp only at changed
  split at changed
  · exact absurd rfl changed
  · rename_i save waiting
    refine ⟨save, waiting, ?_⟩
    unfold document_save_handler at changed
    dsimp only at changed
    split at changed
    · split at changed
      · rename_i permitted
        have here : note_id = noteId (normalize_document_id save.document_id) := by
          by_contra apart
          rw [Dict.get?_modify, if_neg (Ne.symm apart)] at changed
          exact changed rfl
        rw [here]
        exact permitted
      · exact absurd rfl changed
    · exact absurd rfl changed

theorem rooms_clearUnused (document_id : String) :
    (documents.clearUnused merging document_id).rooms = documents.rooms := by
  unfold clearUnused
  split <;> rfl

theorem rooms_remove_user_from_all (sid : String) :
    (documents.remove_user_from_all_documents merging sid).rooms = documents.rooms := by
  unfold remove_user_from_all_documents
  generalize (documents.users.filter (fun entry => decide (entry.2 = sid))).map Prod.fst = keys
  induction keys generalizing documents with
  | nil => rfl
  | cons key rest ih =>
    rw [List.foldl_cons, ih]
    dsimp only
    split <;> rfl

theorem rooms_save (save : Save) :
    (documents.document_save_handler save).rooms = documents.rooms := by
  unfold document_save_handler
  dsimp only
  split
  · split <;> rfl
  · rfl

theorem rooms_step {event : SocketEvent υ} {sid document_id : String}
    (inside : (sid, document_id) ∈ (documents.step merging event).rooms) :
    (sid, document_id) ∈ documents.rooms ∨
      ∃ spelling, event = .join sid spelling ∧ normalize_document_id spelling = document_id ∧
        ∃ user, documents.session_pool.get? sid = some user ∧
          documents.check user document_id "read" = true := by
  cases event with
  | signIn other user => exact Or.inl inside
  | join other spelling =>
    change (sid, document_id) ∈ (documents.ydoc_document_join other spelling).rooms at inside
    unfold ydoc_document_join at inside
    split at inside
    · exact Or.inl inside
    · rename_i user known
      dsimp only at inside
      split at inside
      · rename_i checked
        rcases List.mem_append.mp inside with before | here
        · exact Or.inl before
        · obtain ⟨rfl, rfl⟩ := Prod.mk.inj (List.mem_singleton.mp here)
          exact Or.inr ⟨spelling, rfl, rfl, user, known, checked⟩
      · exact Or.inl inside
  | state other spelling => exact Or.inl inside
  | update other spelling update data stopped =>
    change (sid, document_id) ∈
      (documents.yjs_document_update merging other spelling update data stopped).rooms at inside
    unfold yjs_document_update at inside
    dsimp only at inside
    split at inside
    · exact Or.inl inside
    · exact Or.inl inside
  | leave other spelling =>
    change (sid, document_id) ∈ (documents.yjs_document_leave merging other spelling).rooms at inside
    unfold yjs_document_leave at inside
    split at inside
    · dsimp only at inside
      rw [rooms_clearUnused] at inside
      exact Or.inl (List.mem_filter.mp inside).1
    · exact Or.inl inside
  | disconnect other =>
    change (sid, document_id) ∈ (documents.disconnect merging other).rooms at inside
    unfold disconnect at inside
    dsimp only at inside
    split at inside
    · rw [rooms_remove_user_from_all] at inside
      exact Or.inl (List.mem_filter.mp inside).1
    · exact Or.inl (List.mem_filter.mp inside).1
  | save position =>
    unfold step at inside
    dsimp only at inside
    split at inside
    · exact Or.inl inside
    · rw [rooms_save] at inside
      exact Or.inl inside
  | change note access => exact Or.inl inside

def started (note : Dict String Note) (access : AccessGrants.Database) : Documents υ :=
  ⟨Memory.start, [], Dict.empty, [], note, access, []⟩

theorem joined_of_room {start : Documents υ} (empty : start.rooms = [])
    {run : List (SocketEvent υ)} {sid document_id : String}
    (inside : (sid, document_id) ∈ (run.foldl (step merging) start).rooms) :
    ∃ before spelling after, run = before ++ .join sid spelling :: after ∧
      normalize_document_id spelling = document_id ∧
        ∃ user, (before.foldl (step merging) start).session_pool.get? sid = some user ∧
          (before.foldl (step merging) start).check user document_id "read" = true := by
  induction run using List.reverseRecOn with
  | nil =>
    rw [List.foldl_nil, empty] at inside
    cases inside
  | append_singleton earlier last ih =>
    rw [List.foldl_append, List.foldl_cons, List.foldl_nil] at inside
    rcases rooms_step inside with before | ⟨spelling, rfl, named, checked⟩
    · obtain ⟨front, spelling, back, rfl, named, checked⟩ := ih before
      exact ⟨front, spelling, back ++ [last], by simp, named, checked⟩
    · exact ⟨earlier, spelling, [], rfl, named, checked⟩

end Documents

/-- What an event after the earlier ones may do to the document of the note. -/
structure Authorised (merging : Merging υ σ) (start : Documents υ) (note_id : String)
    (earlier : List (SocketEvent υ)) (event : SocketEvent υ) : Prop where
  join : ∀ sid document_id, event = .join sid document_id →
    storageKey document_id = storageKey (documentOf note_id) →
      let documents := earlier.foldl (Documents.step merging) start
      documents.delivered event ≠ [] ∨ (documents.step merging event).memory ≠ documents.memory →
        documents.Passes sid note_id "read"
  update : ∀ sid document_id update data stopped,
    event = .update sid document_id update data stopped →
      storageKey document_id = storageKey (documentOf note_id) →
        let documents := earlier.foldl (Documents.step merging) start
        documents.delivered event ≠ [] ∨ (documents.step merging event).memory ≠ documents.memory →
          documents.Passes sid note_id "write"
  state : ∀ sid document_id, event = .state sid document_id →
    storageKey document_id = storageKey (documentOf note_id) →
      (earlier.foldl (Documents.step merging) start).delivered event ≠ [] →
        ∃ before spelling after, earlier = before ++ .join sid spelling :: after ∧
          storageKey spelling = storageKey (documentOf note_id) ∧
            (before.foldl (Documents.step merging) start).Passes sid note_id "read"
  save : ∀ position, event = .save position → ∀ saved,
    let documents := earlier.foldl (Documents.step merging) start
    (documents.step merging event).note.get? saved ≠ documents.note.get? saved →
      ∃ save, documents.saving[position]? = some save ∧
        documents.permits save.user saved "write" = true

theorem storageKey_normalize (document_id : String) :
    storageKey (normalize_document_id document_id) = storageKey document_id := by
  unfold normalize_document_id
  split
  · rename_i marked
    obtain ⟨rest, split⟩ := List.isPrefixOf_iff_prefix.mp marked
    rw [storageKey_inj, String.toList_ofList, ← split]
    rfl
  · rfl

/-- However a client spells the id of a note: joining delivers and updating changes its document
only after the check of that very call, its state goes to sessions whose join passed the check, and
saving changes a note only after a check on it. -/
theorem note_authorised (merging : Merging υ σ) (note : Dict String Note)
    (access : AccessGrants.Database) {note_id : String} (plain : Plain note_id)
    (run : List (SocketEvent υ)) :
    Runs.Always (Authorised merging (Documents.started note access) note_id) run := by
  intro earlier event later _
  refine ⟨?_, ?_, ?_, ?_⟩
  · rintro sid document_id rfl same documents (sent | changed)
    · exact Documents.join_passes plain (normalize_of_key plain same) sent
    · exact absurd (Documents.join_memory sid document_id) changed
  · rintro sid document_id update data stopped rfl same documents done
    exact Documents.update_passes plain (normalize_of_key plain same) done
  · rintro sid document_id rfl same sent
    have named := normalize_of_key plain same
    unfold Documents.delivered at sent
    dsimp only at sent
    rw [named] at sent
    split at sent
    · rename_i both
      have inside : (sid, documentOf note_id) ∈
          (earlier.foldl (Documents.step merging) (Documents.started note access)).rooms := by
        obtain ⟨⟨other, room⟩, member, rfl⟩ := List.mem_map.mp both.1
        obtain ⟨member, here⟩ := List.mem_filter.mp member
        obtain rfl : room = documentOf note_id := of_decide_eq_true here
        exact member
      obtain ⟨before, spelling, after, split, spelled, user, known, checked⟩ :=
        Documents.joined_of_room rfl inside
      rw [Documents.check_documentOf plain] at checked
      exact ⟨before, spelling, after, split, by rw [← storageKey_normalize, spelled],
        user, known, checked⟩
    · exact absurd rfl sent
  · rintro position rfl saved documents changed
    exact Documents.save_passes changed

def oneNote : Documents Nat :=
  Documents.started (Dict.empty.set "1" ⟨"ann", []⟩) ⟨[], [], [], []⟩

def twoNames : List (SocketEvent Nat) :=
  [.signIn "a" ⟨"ann", "user"⟩, .join "a" "note_1", .update "a" "note:1" 5 [] false,
    .signIn "b" ⟨"bob", "user"⟩, .join "b" "note:1"]

theorem twoNames_authorised : Runs.Always (Authorised largest oneNote "1") twoNames ∧
    ((twoNames.take 1).foldl (Documents.step largest) oneNote).delivered (.join "a" "note_1") =
      [("a", "note_1")] ∧
    ((twoNames.take 4).foldl (Documents.step largest) oneNote).delivered (.join "b" "note:1") = [] :=
  ⟨note_authorised largest _ _ ⟨by decide, by decide⟩ twoNames, by decide +kernel, by decide +kernel⟩

end OpenWebui.Ydoc
