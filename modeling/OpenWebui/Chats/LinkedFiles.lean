import Mathlib.Data.List.Dedup
import OpenWebui.Base.Dict
import OpenWebui.Base.Runs

/-! `insert_chat_files`: files are linked to a chat. -/

namespace OpenWebui.LinkedFiles

structure ChatFile where
  id : String
  user_id : String
  chat_id : String
  message_id : Option String
  file_id : String
  created_at : Int
  updated_at : Int

/-- The rows of `chat_file`: ids are unique, and so are a chat and a file together. -/
structure ChatFiles where
  rows : List ChatFile
  ids_unique : (rows.map ChatFile.id).Nodup
  uq_chat_file_chat_file : (rows.map (fun row => (row.chat_id, row.file_id))).Nodup

/-- New ids: none has been used, and different files get different ones. -/
structure Uuids where
  uuid4 : List String → String → String
  unused : ∀ used file_id, uuid4 used file_id ∉ used
  apart : ∀ used, Function.Injective (uuid4 used)

/-- The other tables: the owners of the files, the roles of the users, the chats, and who else has
access to a file as the links stand. -/
structure World where
  files : Dict String String
  users : Dict String String
  chats : List String
  has_access_to_file : ChatFiles → String → String → Bool

structure Call where
  message_id : Option String
  file_ids : List String
  user_id : String
  now : Int

section

variable (uuids : Uuids) (world : World) (chat_id : String) (table : ChatFiles) (call : Call)

def get_chat_files_by_chat_id_and_message_id (message_id : Option String) : List ChatFile :=
  table.rows.filter (fun row => decide (row.chat_id = chat_id ∧ row.message_id = message_id))

def accessible (file_id : String) : Bool :=
  match world.files.get? file_id with
  | none => false
  | some owner =>
    match world.users.get? call.user_id with
    | none => decide (owner = call.user_id)
    | some role => decide (owner = call.user_id) || decide (role = "admin") ||
      world.has_access_to_file table file_id call.user_id

def commit (chat_files : List ChatFile) : ChatFiles × Option (List ChatFile) :=
  if kept : (∀ row ∈ chat_files, row.chat_id ∈ world.chats) ∧
      ((table.rows ++ chat_files).map ChatFile.id).Nodup ∧
      ((table.rows ++ chat_files).map (fun row => (row.chat_id, row.file_id))).Nodup then
    (⟨table.rows ++ chat_files, kept.2.1, kept.2.2⟩, some chat_files)
  else (table, none)

def newRows (file_ids : List String) : List ChatFile :=
  file_ids.map (fun file_id =>
    { id := uuids.uuid4 (table.rows.map ChatFile.id) file_id
      user_id := call.user_id
      chat_id := chat_id
      message_id := call.message_id
      file_id := file_id
      created_at := call.now
      updated_at := call.now })

def remaining : List String :=
  let chat_message_file_ids :=
    (get_chat_files_by_chat_id_and_message_id chat_id table call.message_id).map ChatFile.id
  (call.file_ids.filter (fun file_id =>
    decide (file_id ≠ "") && decide (file_id ∉ chat_message_file_ids))).dedup

def insert_chat_files : ChatFiles × Option (List ChatFile) :=
  if call.file_ids.isEmpty then (table, none)
  else
    let file_ids := remaining chat_id table call
    if file_ids.isEmpty then (table, none)
    else
      let file_ids := file_ids.filter (accessible world table call)
      if file_ids.isEmpty then (table, none)
      else commit world table (newRows uuids chat_id table call file_ids)

/-- The file is linked to the chat. -/
def Linked (file_id : String) : Prop :=
  ∃ row ∈ table.rows, row.chat_id = chat_id ∧ row.file_id = file_id

/-- The call lists the file, and there is one. -/
def Lists (file_id : String) : Prop :=
  file_id ∈ call.file_ids ∧ (world.files.get? file_id).isSome = true

/-- The files that the caller lists are readable by it. -/
def Readable : Prop := ∀ file_id, Lists world call file_id → accessible world table call file_id = true

end

section

variable {uuids : Uuids} {world : World} {chat_id : String} {table : ChatFiles} {call : Call}

theorem mem_remaining {file_id : String} :
    file_id ∈ remaining chat_id table call ↔ file_id ∈ call.file_ids ∧ file_id ≠ "" ∧
      ∀ row ∈ table.rows, row.chat_id = chat_id → row.message_id = call.message_id →
        row.id ≠ file_id := by
  simp only [remaining, get_chat_files_by_chat_id_and_message_id, List.mem_dedup, List.mem_filter,
    Bool.and_eq_true, decide_eq_true_eq, List.mem_map, not_exists, not_and, and_imp]

theorem accessible_exists {file_id : String} (may : accessible world table call file_id = true) :
    (world.files.get? file_id).isSome = true := by
  unfold accessible at may
  split at may
  · cases may
  · rename_i found
    rw [found]
    rfl

theorem ids_newRows {file_ids : List String} (distinct : file_ids.Nodup) :
    ((table.rows ++ newRows uuids chat_id table call file_ids).map ChatFile.id).Nodup := by
  rw [List.map_append, newRows, List.map_map, List.nodup_append]
  refine ⟨table.ids_unique, distinct.map (uuids.apart _), ?_⟩
  rintro used listed _ fresh rfl
  obtain ⟨file_id, _, rfl⟩ := List.mem_map.mp fresh
  exact uuids.unused _ file_id listed

theorem links_newRows {file_ids : List String} (distinct : file_ids.Nodup) :
    ((table.rows ++ newRows uuids chat_id table call file_ids).map
        (fun row => (row.chat_id, row.file_id))).Nodup ↔
      ∀ file_id ∈ file_ids, ¬ Linked chat_id table file_id := by
  rw [List.map_append, newRows, List.map_map, List.nodup_append]
  constructor
  · rintro ⟨_, _, apart⟩ file_id listed ⟨row, member, chat, file⟩
    exact apart _ (List.mem_map.mpr ⟨row, member, rfl⟩) _ (List.mem_map.mpr ⟨file_id, listed, rfl⟩)
      (by simp [chat, file])
  · intro unlinked
    refine ⟨table.uq_chat_file_chat_file, distinct.map ?_, ?_⟩
    · intro first second same
      exact (Prod.mk.inj same).2
    · intro used linked new listed same
      obtain ⟨row, member, rfl⟩ := List.mem_map.mp linked
      obtain ⟨file_id, asked, rfl⟩ := List.mem_map.mp listed
      obtain ⟨chat, file⟩ := Prod.mk.inj same
      exact unlinked file_id asked ⟨row, member, chat, file⟩

theorem linked_newRows {file_ids : List String} {file_id : String} :
    (∃ row ∈ newRows uuids chat_id table call file_ids, row.chat_id = chat_id ∧ row.file_id = file_id) ↔
      file_id ∈ file_ids := by
  constructor
  · rintro ⟨_, member, _, rfl⟩
    obtain ⟨file_id, listed, rfl⟩ := List.mem_map.mp member
    exact listed
  · exact fun listed => ⟨_, List.mem_map.mpr ⟨file_id, listed, rfl⟩, rfl, rfl⟩

theorem linked_commit (chat : chat_id ∈ world.chats) {file_ids : List String} (distinct : file_ids.Nodup)
    {file_id : String} :
    Linked chat_id (commit world table (newRows uuids chat_id table call file_ids)).1 file_id ↔
      Linked chat_id table file_id ∨
        file_id ∈ file_ids ∧ ∀ other ∈ file_ids, ¬ Linked chat_id table other := by
  have chats : ∀ row ∈ newRows uuids chat_id table call file_ids, row.chat_id ∈ world.chats := by
    intro row member
    obtain ⟨file_id, _, rfl⟩ := List.mem_map.mp member
    exact chat
  unfold commit
  split
  · rename_i kept
    have unlinked := (links_newRows distinct).mp kept.2.2
    rw [Linked]
    simp only [List.mem_append, or_and_right, exists_or, linked_newRows]
    exact or_congr Iff.rfl ⟨fun listed => ⟨listed, unlinked⟩, And.left⟩
  · rename_i undone
    refine ⟨Or.inl, fun either => either.elim (fun linked => linked) ?_⟩
    rintro ⟨_, unlinked⟩
    exact absurd ⟨chats, ids_newRows distinct, (links_newRows distinct).mpr unlinked⟩ undone

/-- A listed file that is there, and that the call does not take for a linked one. -/
def Offered (world : World) (chat_id : String) (table : ChatFiles) (call : Call) (file_id : String) :
    Prop :=
  file_id ∈ remaining chat_id table call ∧ (world.files.get? file_id).isSome = true

theorem lists_of_offered {file_id : String} (offered : Offered world chat_id table call file_id) :
    Lists world call file_id := ⟨(mem_remaining.mp offered.1).1, offered.2⟩

theorem linked_insert (chat : chat_id ∈ world.chats) (readable : Readable world table call)
    {file_id : String} :
    Linked chat_id (insert_chat_files uuids world chat_id table call).1 file_id ↔
      Linked chat_id table file_id ∨ Offered world chat_id table call file_id ∧
        ∀ other, Offered world chat_id table call other → ¬ Linked chat_id table other := by
  have kept : ∀ other, other ∈ (remaining chat_id table call).filter (accessible world table call) ↔
      Offered world chat_id table call other := by
    intro other
    rw [List.mem_filter]
    exact ⟨fun both => ⟨both.1, accessible_exists both.2⟩,
      fun offered => ⟨offered.1, readable other (lists_of_offered offered)⟩⟩
  have nothing : (∀ other, ¬ Offered world chat_id table call other) →
      (Linked chat_id table file_id ↔ Linked chat_id table file_id ∨
        Offered world chat_id table call file_id ∧
          ∀ other, Offered world chat_id table call other → ¬ Linked chat_id table other) := by
    intro none_offered
    exact ⟨Or.inl, fun either => either.elim (fun linked => linked)
      (fun both => absurd both.1 (none_offered file_id))⟩
  unfold insert_chat_files
  dsimp only
  split
  · rename_i no_files
    refine nothing fun other offered => ?_
    have listed := (lists_of_offered offered).1
    rw [List.isEmpty_iff.mp no_files] at listed
    cases listed
  · split
    · rename_i no_files
      refine nothing fun other offered => ?_
      have listed := offered.1
      rw [List.isEmpty_iff.mp no_files] at listed
      cases listed
    · split
      · rename_i no_files
        refine nothing fun other offered => ?_
        have listed := (kept other).mpr offered
        rw [List.isEmpty_iff.mp no_files] at listed
        cases listed
      · have distinct : ((remaining chat_id table call).filter (accessible world table call)).Nodup :=
          (List.nodup_dedup _).filter _
        rw [linked_commit chat distinct]
        simp only [kept]

def run (uuids : Uuids) (world : World) (chat_id : String) (start : ChatFiles) (calls : List Call) :
    ChatFiles :=
  calls.foldl (fun table call => (insert_chat_files uuids world chat_id table call).1) start

/-- What was linked before, and every listed file that is there. -/
def Union (world : World) (chat_id : String) (start : ChatFiles) (calls : List Call) (table : ChatFiles) :
    Prop :=
  ∀ file_id, Linked chat_id table file_id ↔
    Linked chat_id start file_id ∨ ∃ call ∈ calls, Lists world call file_id

/-- Where the call lists a file that is not linked yet, it takes this one for no linked one, and what
it offers is not linked. -/
def Joins (world : World) (chat_id : String) (table : ChatFiles) (call : Call) : Prop :=
  ∀ file_id, Lists world call file_id → ¬ Linked chat_id table file_id →
    file_id ∈ remaining chat_id table call ∧
      ∀ other, Offered world chat_id table call other → ¬ Linked chat_id table other

theorem union_insert_iff {start : ChatFiles} {calls : List Call} (chat : chat_id ∈ world.chats)
    (readable : Readable world table call) (union : Union world chat_id start calls table) :
    Union world chat_id start (calls ++ [call]) (insert_chat_files uuids world chat_id table call).1 ↔
      Joins world chat_id table call := by
  have listed : ∀ file_id, (Linked chat_id start file_id ∨ ∃ other ∈ calls ++ [call],
      Lists world other file_id) ↔ Linked chat_id table file_id ∨ Lists world call file_id := by
    intro file_id
    rw [union file_id]
    simp only [List.mem_append, List.mem_singleton, or_and_right, exists_or, exists_eq_left, or_assoc]
  rw [Union]
  simp only [listed, linked_insert chat readable]
  constructor
  · intro union file_id lists unlinked
    have both := ((union file_id).mpr (Or.inr lists)).resolve_left unlinked
    exact ⟨both.1.1, both.2⟩
  · intro joins file_id
    constructor
    · exact Or.imp_right (fun both => lists_of_offered both.1)
    · rintro (linked | lists)
      · exact Or.inl linked
      · by_cases linked : Linked chat_id table file_id
        · exact Or.inl linked
        · obtain ⟨left, unlinked⟩ := joins file_id lists linked
          exact Or.inr ⟨⟨left, lists.2⟩, unlinked⟩

/-- After each call of a run the linked files are the union exactly where every call joins its files
to them. -/
theorem union_iff (uuids : Uuids) (world : World) (chat_id : String) (start : ChatFiles)
    (calls : List Call) (chat : chat_id ∈ world.chats)
    (readable : Runs.Always (fun earlier call =>
      Readable world (run uuids world chat_id start earlier) call) calls) :
    (∀ earlier later, calls = earlier ++ later →
        Union world chat_id start earlier (run uuids world chat_id start earlier)) ↔
      Runs.Always (fun earlier call =>
        Joins world chat_id (run uuids world chat_id start earlier) call) calls := by
  induction calls using List.reverseRecOn with
  | nil =>
    refine iff_of_true ?_ (Runs.always_nil _)
    intro earlier later split
    obtain ⟨rfl, _⟩ := List.append_eq_nil_iff.mp split.symm
    exact fun file_id => by simp [run]
  | append_singleton calls call ih =>
    rw [Runs.always_append] at readable ⊢
    have last : run uuids world chat_id start (calls ++ [call]) =
        (insert_chat_files uuids world chat_id (run uuids world chat_id start calls) call).1 := by
      rw [run, List.foldl_append]
      rfl
    rw [← ih readable.1]
    constructor
    · intro unions
      have before : ∀ earlier later, calls = earlier ++ later →
          Union world chat_id start earlier (run uuids world chat_id start earlier) :=
        fun earlier later split => unions earlier (later ++ [call]) (by rw [split, List.append_assoc])
      refine ⟨before, ?_⟩
      have whole := unions (calls ++ [call]) [] (List.append_nil _).symm
      rw [last] at whole
      exact (union_insert_iff chat readable.2 (before calls [] (List.append_nil _).symm)).mp whole
    · rintro ⟨before, joins⟩ earlier later split
      rcases later.eq_nil_or_concat with rfl | ⟨shorter, final, rfl⟩
      · rw [List.append_nil] at split
        rw [← split, last]
        exact (union_insert_iff chat readable.2 (before calls [] (List.append_nil _).symm)).mpr joins
      · rw [List.concat_eq_append, ← List.append_assoc] at split
        exact before earlier shorter (List.append_inj' split rfl).1

end

def longer : Uuids where
  uuid4 used file_id := String.ofList ('#' :: (used.flatMap String.toList ++ file_id.toList))
  unused := by
    intro used file_id listed
    have shorter := (List.sublist_flatten_of_mem (List.mem_map.mpr ⟨_, listed, rfl⟩) :
      List.Sublist _ (used.map String.toList).flatten).length_le
    rw [String.toList_ofList, List.length_cons, List.length_append, ← List.flatMap_def] at shorter
    omega
  apart := by
    intro used first second same
    have letters := List.append_cancel_left (List.cons.inj (String.ofList_injective same)).2
    exact String.toList_injective letters

def desk : World where
  files := Dict.ofEntries [("a", "me"), ("b", "me")]
  users := .empty
  chats := ["c"]
  has_access_to_file _ _ _ := false

def noLinks : ChatFiles := ⟨[], List.nodup_nil, List.nodup_nil⟩

theorem own_readable (table : ChatFiles) (message_id : Option String) (file_ids : List String) (now : Int) :
    Readable desk table ⟨message_id, file_ids, "me", now⟩ := by
  rintro file_id ⟨_, found⟩
  obtain ⟨owner, found⟩ := Option.isSome_iff_exists.mp found
  have mine : owner = "me" := by
    have entry := Dict.mem_entries_iff.mpr found
    simp only [desk, Dict.ofEntries_of_nodup (by decide : (Assoc.keys [("a", "me"), ("b", "me")]).Nodup),
      List.mem_cons, Prod.mk.injEq, List.not_mem_nil, or_false] at entry
    rcases entry with ⟨_, rfl⟩ | ⟨_, rfl⟩ <;> rfl
  rw [accessible, found]
  simp [desk, mine]

theorem first_union : Union desk "c" noLinks [⟨some "m", ["a", "b", "a"], "me", 0⟩]
    (run longer desk "c" noLinks [⟨some "m", ["a", "b", "a"], "me", 0⟩]) := by
  refine (union_iff longer desk "c" noLinks _ (by decide) ?_).mpr ?_ _ [] (List.append_nil _).symm
  · exact Runs.always_cons.mpr ⟨own_readable _ _ _ _, Runs.always_nil _⟩
  · refine Runs.always_cons.mpr ⟨?_, Runs.always_nil _⟩
    have unlinked : ∀ file_id, ¬ Linked "c" noLinks file_id := by
      rintro file_id ⟨row, member, _⟩
      cases member
    rintro file_id ⟨listed, _⟩ _
    refine ⟨mem_remaining.mpr ⟨listed, ?_, fun row member => nomatch member⟩,
      fun other _ => unlinked other⟩
    rintro rfl
    simp at listed

/-- A file that is linked already is listed again, beside a new one. -/
theorem relinked_loses : ¬ Union desk "c" noLinks
    [⟨some "m", ["a"], "me", 0⟩, ⟨some "n", ["a", "b"], "me", 1⟩]
    (run longer desk "c" noLinks
      [⟨some "m", ["a"], "me", 0⟩, ⟨some "n", ["a", "b"], "me", 1⟩]) := by
  intro union
  have rows : (run longer desk "c" noLinks
      [⟨some "m", ["a"], "me", 0⟩, ⟨some "n", ["a", "b"], "me", 1⟩]).rows.map ChatFile.file_id =
        ["a"] := by decide +kernel
  obtain ⟨row, member, _, file⟩ := (union "b").mpr (Or.inr
    ⟨⟨some "n", ["a", "b"], "me", 1⟩, by simp, by simp, by decide⟩)
  have listed : row.file_id ∈ ["a"] := rows ▸ List.mem_map_of_mem member
  rw [file] at listed
  simp at listed

end OpenWebui.LinkedFiles
