import OpenWebui.Tags.Requests
import OpenWebui.Base.Runs
import Mathlib.Data.List.Nodup
import Mathlib.Data.List.Perm.Subperm

/-! The tag rows of a user mirror the tags on the visible chats of the user, exactly as long as no
request leaves the rows behind. -/

namespace OpenWebui.Tags

/-- A visible chat of the user carries the tag. -/
def Carried (user_id : String) (tables : Tables) (tag : String) : Prop :=
  ∃ id chat, tables.chat.get? id = some chat ∧ chat.visible user_id = true ∧ tag ∈ chat.tags

/-- The tag rows are those of the tags that visible chats carry. -/
def Mirrors (user_id : String) (tables : Tables) : Prop :=
  ∀ tag, tag ∈ tables.tag.keys ↔ Carried user_id tables tag

/-- Two rows of one id would be made. -/
def Clashes (lowering : Lowering) (tables : Tables) (names : List String) : Prop :=
  ¬ ((names.map lowering.tagId).filter (fun id => decide (id ∉ tables.tag.keys))).Nodup

/-- A copy of the chat would carry only tags that have rows. -/
def CopyGuarded (tables : Tables) (found : Option Chat) : Prop :=
  ∀ chat, found = some chat → chat.internal = false → ∀ tag ∈ chat.tags, tag ∈ tables.tag.keys

/-- When a request keeps the rows in step with the tags. -/
def Guarded (lowering : Lowering) (user_id : String) (tables : Tables) : Request → Prop
  | .import_chats chats => ∀ form ∈ chats, form.2.internal = false →
      ∀ tag ∈ form.2.tags, tag ∈ tables.tag.keys
  | .clone_chat_by_id id _ => CopyGuarded tables (get_chat_by_id_and_user_id user_id tables id)
  | .clone_shared_chat_by_id snapshot admin id _ => snapshot = false → admin = true →
      CopyGuarded tables (tables.chat.get? id)
  | .fork_chat_by_id id _ => CopyGuarded tables (get_chat_by_id_and_user_id user_id tables id)
  | .add_tag_by_id_and_tag_name id name => ∀ chat,
      get_chat_by_id_and_user_id user_id tables id = some chat → lowering.tagId name ≠ "none" →
        lowering.tagId name ∉ chat.tags →
          chat.visible user_id = true ∨ lowering.tagId name ∈ tables.tag.keys
  | .update_chat_tags_by_id id tags => ∀ chat, tables.chat.get? id = some chat →
      let names := tags.filter (fun tag => decide (lowering.tagId tag ≠ "none"))
      if chat.visible user_id = true then ¬ Clashes lowering tables names
      else Clashes lowering tables names ∨ ∀ name ∈ names, lowering.tagId name ∈ tables.tag.keys
  | .archive_chat_by_id id => ∀ chat, get_chat_by_id_and_user_id user_id tables id = some chat →
      chat.archived = true →
        if chat.internal = true then
          Clashes lowering tables chat.tags ∨
            ∀ tag ∈ chat.tags, lowering.tagId tag ∈ tables.tag.keys
        else ¬ Clashes lowering tables chat.tags ∧ ∀ tag ∈ chat.tags, lowering.tagId tag = tag
  | .archive_all_chats => tables.tag.keys = []
  | .unarchive_all_chats => ∀ id chat, tables.chat.get? id = some chat → chat.user_id = user_id →
      chat.internal = false → ∀ tag ∈ chat.tags, tag ∈ tables.tag.keys
  | .delete_chat_by_id admin id => ∀ chat,
      (if admin then tables.chat.get? id else get_chat_by_id_and_user_id user_id tables id) =
          some chat →
        chat.visible user_id = false → ∀ tag ∈ chat.tags, tag ∈ tables.tag.keys →
          count_chats_by_tag_id lowering user_id tables tag ≠ 1
  | .delete_all_user_chats => tables.tag.keys = []
  | .get_user_chat_list_by_tag_name name skip _ =>
      (listedWith user_id tables (lowering.tagId name)).length ≤ (skip.getD 0).toNat →
        lowering.tagId name ∉ tables.tag.keys
  | _ => True

section Rows

variable {lowering : Lowering} {user_id : String} {tables : Tables}

theorem mem_keys_foldl_set {rows : List (String × String)} {tag : Dict String String} {query : String} :
    query ∈ (rows.foldl (fun tag row => tag.set row.1 row.2) tag).keys ↔
      query ∈ tag.keys ∨ query ∈ rows.map Prod.fst := by
  induction rows generalizing tag with
  | nil => simp
  | cons row rest ih =>
    rw [List.foldl_cons, ih, Dict.mem_keys_set, List.map_cons, List.mem_cons]
    constructor
    · rintro ((same | old) | later)
      · exact Or.inr (Or.inl same)
      · exact Or.inl old
      · exact Or.inr (Or.inr later)
    · rintro (old | same | later)
      · exact Or.inl (Or.inr old)
      · exact Or.inl (Or.inl same)
      · exact Or.inr later

theorem ids_of_new_tags (names : List String) :
    ((names.map (fun name => (lowering.tagId name, name))).filter (fun row =>
      decide (row.1 ∉ tables.tag.keys))).map Prod.fst =
        (names.map lowering.tagId).filter (fun id => decide (id ∉ tables.tag.keys)) := by
  induction names with
  | nil => rfl
  | cons name rest ih =>
    by_cases present : lowering.tagId name ∈ tables.tag.keys
    · simpa [present] using ih
    · simpa [present] using ih

theorem ensure_tags_exist_cases (names : List String) :
    (Clashes lowering tables names ∧ ensure_tags_exist lowering tables names = none) ∨
      (¬ Clashes lowering tables names ∧ ∃ tag, ensure_tags_exist lowering tables names =
          some { tables with tag := tag } ∧
        ∀ query, query ∈ tag.keys ↔
          query ∈ tables.tag.keys ∨ ∃ name ∈ names, lowering.tagId name = query) := by
  unfold ensure_tags_exist Clashes
  dsimp only
  rw [ids_of_new_tags]
  by_cases distinct :
      ((names.map lowering.tagId).filter (fun id => decide (id ∉ tables.tag.keys))).Nodup
  · refine Or.inr ⟨not_not_intro distinct, _, if_pos distinct, ?_⟩
    intro query
    rw [mem_keys_foldl_set, ids_of_new_tags, List.mem_filter, List.mem_map, decide_eq_true_eq]
    constructor
    · rintro (old | ⟨made, _⟩)
      · exact Or.inl old
      · exact Or.inr made
    · rintro (old | made)
      · exact Or.inl old
      · by_cases old : query ∈ tables.tag.keys
        · exact Or.inl old
        · exact Or.inr ⟨made, old⟩
  · exact Or.inl ⟨distinct, if_neg distinct⟩

theorem exists_of_clashes {names : List String} (clashes : Clashes lowering tables names) :
    ∃ name ∈ names, lowering.tagId name ∉ tables.tag.keys := by
  by_contra all
  refine clashes ?_
  have nothing : (names.map lowering.tagId).filter (fun id => decide (id ∉ tables.tag.keys)) = [] := by
    rw [List.filter_eq_nil_iff]
    intro id member missing
    obtain ⟨name, listed, rfl⟩ := List.mem_map.mp member
    exact all ⟨name, listed, of_decide_eq_true missing⟩
  rw [nothing]
  exact List.nodup_nil

theorem mem_keys_delete_orphan {tag_ids : List String} {threshold : Nat} {query : String} :
    query ∈ (delete_orphan_tags_for_user lowering user_id tables tag_ids threshold).tag.keys ↔
      query ∈ tables.tag.keys ∧ (query ∈ tag_ids →
        threshold < count_chats_by_tag_id lowering user_id tables query) := by
  rw [delete_orphan_tags_for_user, delete_tags_by_ids_and_user_id, Dict.mem_keys_foldl_erase,
    List.mem_filter, decide_eq_true_eq, not_and, Nat.not_le, and_comm]

theorem mem_counted {tag_id id : String} {chat : Chat} :
    (id, chat) ∈ tables.chat.entries.filter (fun row =>
      row.2.visible user_id && decide (lowering.tagId tag_id ∈ row.2.tags)) ↔
        tables.chat.get? id = some chat ∧ chat.visible user_id = true ∧
          lowering.tagId tag_id ∈ chat.tags := by
  rw [List.mem_filter, Dict.mem_entries_iff, Bool.and_eq_true, decide_eq_true_eq]

theorem count_pos_iff {tag_id : String} :
    0 < count_chats_by_tag_id lowering user_id tables tag_id ↔
      Carried user_id tables (lowering.tagId tag_id) := by
  rw [count_chats_by_tag_id, List.length_pos_iff_exists_mem]
  constructor
  · rintro ⟨⟨id, chat⟩, counted⟩
    exact ⟨id, chat, mem_counted.mp counted⟩
  · rintro ⟨id, chat, carried⟩
    exact ⟨(id, chat), mem_counted.mpr carried⟩

/-- A visible chat other than this one carries the tag. -/
def Elsewhere (user_id : String) (tables : Tables) (id tag : String) : Prop :=
  ∃ other chat, other ≠ id ∧ tables.chat.get? other = some chat ∧ chat.visible user_id = true ∧
    tag ∈ chat.tags

theorem carried_iff {id tag : String} {chat : Chat} (found : tables.chat.get? id = some chat) :
    Carried user_id tables tag ↔
      (chat.visible user_id = true ∧ tag ∈ chat.tags) ∨ Elsewhere user_id tables id tag := by
  constructor
  · rintro ⟨other, held, stored, carries⟩
    by_cases same : other = id
    · subst same
      obtain rfl := Option.some.inj (found.symm.trans stored)
      exact Or.inl carries
    · exact Or.inr ⟨other, held, same, stored, carries⟩
  · rintro (carries | ⟨other, held, _, stored, carries⟩)
    · exact ⟨id, chat, found, carries⟩
    · exact ⟨other, held, stored, carries⟩

theorem elsewhere_congr {after : Tables} {id tag : String}
    (same : ∀ other, other ≠ id → after.chat.get? other = tables.chat.get? other) :
    Elsewhere user_id after id tag ↔ Elsewhere user_id tables id tag := by
  constructor
  · rintro ⟨other, chat, different, stored, carries⟩
    exact ⟨other, chat, different, (same other different).symm.trans stored, carries⟩
  · rintro ⟨other, chat, different, stored, carries⟩
    exact ⟨other, chat, different, (same other different).trans stored, carries⟩

theorem distinct_entries {β : Type} (dict : Dict String β) : dict.entries.Nodup :=
  List.Nodup.of_map Prod.fst dict.unique

theorem one_lt_count_iff {id tag_id : String} {chat : Chat}
    (found : tables.chat.get? id = some chat) (seen : chat.visible user_id = true)
    (carries : lowering.tagId tag_id ∈ chat.tags) :
    1 < count_chats_by_tag_id lowering user_id tables tag_id ↔
      Elsewhere user_id tables id (lowering.tagId tag_id) := by
  have here := mem_counted.mpr ⟨found, seen, carries⟩
  rw [count_chats_by_tag_id]
  constructor
  · intro more
    -- Were there no other chat, all that are counted would be this one.
    by_contra alone
    have only : ∀ row ∈ tables.chat.entries.filter (fun row =>
        row.2.visible user_id && decide (lowering.tagId tag_id ∈ row.2.tags)), row = (id, chat) := by
      rintro ⟨other, held⟩ counted
      obtain ⟨stored, carries⟩ := mem_counted.mp counted
      by_cases same : other = id
      · subst same
        obtain rfl := Option.some.inj (found.symm.trans stored)
        rfl
      · exact absurd ⟨other, held, same, stored, carries⟩ alone
    have fits := List.subperm_of_subset ((distinct_entries tables.chat).filter _) (fun row counted =>
      List.mem_singleton.mpr (only row counted))
    exact absurd fits.length_le (Nat.not_le.mpr more)
  · rintro ⟨other, held, different, stored, carries⟩
    have there := mem_counted.mpr ⟨stored, carries⟩
    have two : [(id, chat), (other, held)].Nodup := by
      simp [Ne.symm different]
    have fits := List.subperm_of_subset two (fun row listed => by
      rcases List.mem_cons.mp listed with rfl | listed
      · exact here
      · obtain rfl := List.mem_singleton.mp listed
        exact there)
    exact fits.length_le

end Rows

section Requests

variable {lowering : Lowering} {user_id : String} {tables after : Tables}

/-- Every row has the id that its id names. -/
def Normal (lowering : Lowering) (tables : Tables) : Prop :=
  ∀ tag ∈ tables.tag.keys, lowering.tagId tag = tag

theorem mirrors_iff_of_rows (mirrors : Mirrors user_id tables)
    (rows : after.tag = tables.tag) :
    Mirrors user_id after ↔ ∀ tag, Carried user_id after tag ↔ Carried user_id tables tag := by
  constructor
  · intro mirrored tag
    rw [← mirrored tag, rows, mirrors tag]
  · intro same tag
    rw [rows, mirrors tag, same tag]

@[simp] theorem tag_setTags (id : String) (tags : List String) :
    (setTags tables id tags).tag = tables.tag := rfl

theorem carried_modify {id tag : String} {chat : Chat} {update : Chat → Chat}
    (found : tables.chat.get? id = some chat) :
    Carried user_id { tables with chat := tables.chat.modify id update } tag ↔
      ((update chat).visible user_id = true ∧ tag ∈ (update chat).tags) ∨
        Elsewhere user_id tables id tag := by
  have changed : (tables.chat.modify id update).get? id = some (update chat) := by
    rw [Dict.get?_modify, if_pos rfl, found]
    rfl
  rw [@carried_iff user_id { tables with chat := tables.chat.modify id update } id tag _ changed]
  have others : Elsewhere user_id { tables with chat := tables.chat.modify id update } id tag ↔
      Elsewhere user_id tables id tag := by
    apply elsewhere_congr
    intro other different
    rw [Dict.get?_modify, if_neg (Ne.symm different)]
  rw [others]

theorem carried_set {id tag : String} {chat : Chat} (fresh : id ∉ tables.chat.keys) :
    Carried user_id { tables with chat := tables.chat.set id chat } tag ↔
      (chat.visible user_id = true ∧ tag ∈ chat.tags) ∨ Carried user_id tables tag := by
  have added : (tables.chat.set id chat).get? id = some chat := by
    rw [Dict.get?_set, if_pos rfl]
  rw [@carried_iff user_id { tables with chat := tables.chat.set id chat } id tag _ added]
  have others : Elsewhere user_id { tables with chat := tables.chat.set id chat } id tag ↔
      Carried user_id tables tag := by
    constructor
    · rintro ⟨other, held, different, stored, carries⟩
      rw [Dict.get?_set, if_neg (Ne.symm different)] at stored
      exact ⟨other, held, stored, carries⟩
    · rintro ⟨other, held, stored, carries⟩
      have different : other ≠ id := by
        rintro rfl
        exact fresh (Dict.mem_keys_of_get? stored)
      refine ⟨other, held, different, ?_, carries⟩
      rw [Dict.get?_set, if_neg (Ne.symm different)]
      exact stored
  rw [others]

theorem import_chats_cons (form : String × ChatImportForm) (rest : List (String × ChatImportForm)) :
    import_chats user_id tables (form :: rest) = import_chats user_id { tables with
      chat := tables.chat.set form.1
        ⟨user_id, false, form.2.internal, form.2.parent_chat_id, form.2.tags⟩ } rest := rfl

theorem carried_import {chats : List (String × ChatImportForm)} {tag : String}
    (distinct : (chats.map Prod.fst).Nodup)
    (fresh : ∀ id ∈ chats.map Prod.fst, id ∉ tables.chat.keys) :
    Carried user_id (import_chats user_id tables chats) tag ↔
      (∃ form ∈ chats, form.2.internal = false ∧ tag ∈ form.2.tags) ∨ Carried user_id tables tag := by
  induction chats generalizing tables with
  | nil => simp [import_chats]
  | cons form rest ih =>
    rw [List.map_cons, List.nodup_cons] at distinct
    rw [import_chats_cons, ih distinct.2, carried_set (fresh form.1 List.mem_cons_self)]
    · simp only [Chat.visible, decide_true, Bool.not_false, Bool.and_true, Bool.true_and,
        Bool.not_eq_true', List.mem_cons, exists_eq_or_imp]
      constructor
      · rintro (later | first | old)
        · exact Or.inl (Or.inr later)
        · exact Or.inl (Or.inl first)
        · exact Or.inr old
      · rintro ((first | later) | old)
        · exact Or.inr (Or.inl first)
        · exact Or.inl later
        · exact Or.inr (Or.inr old)
    · intro id member
      rw [Dict.mem_keys_set, not_or]
      refine ⟨?_, fresh id (List.mem_cons_of_mem _ member)⟩
      rintro rfl
      exact distinct.1 member

theorem mirrors_import_iff (mirrors : Mirrors user_id tables)
    {chats : List (String × ChatImportForm)} (distinct : (chats.map Prod.fst).Nodup)
    (fresh : ∀ id ∈ chats.map Prod.fst, id ∉ tables.chat.keys) :
    Mirrors user_id (import_chats user_id tables chats) ↔
      ∀ form ∈ chats, form.2.internal = false → ∀ tag ∈ form.2.tags, tag ∈ tables.tag.keys := by
  have rows : (import_chats user_id tables chats).tag = tables.tag := rfl
  rw [mirrors_iff_of_rows mirrors rows]
  constructor
  · intro same form member seen tag carries
    rw [mirrors tag, ← same tag, carried_import distinct fresh]
    exact Or.inl ⟨form, member, seen, carries⟩
  · intro known tag
    rw [carried_import distinct fresh]
    constructor
    · rintro (⟨form, member, seen, carries⟩ | old)
      · exact (mirrors tag).mp (known form member seen tag carries)
      · exact old
    · exact Or.inr

theorem mirrors_copy_iff (mirrors : Mirrors user_id tables) {found : Option Chat} {copy : String}
    (fresh : copy ∉ tables.chat.keys) :
    Mirrors user_id (copyOf user_id tables found copy) ↔ CopyGuarded tables found := by
  cases found with
  | none =>
    refine iff_of_true mirrors ?_
    rintro chat ⟨⟩
  | some chat =>
    refine (@mirrors_import_iff user_id tables mirrors
      [(copy, ⟨chat.internal, chat.parent_chat_id, chat.tags⟩)] (List.nodup_singleton copy) ?_).trans ?_
    · intro id member
      obtain rfl := List.mem_singleton.mp member
      exact fresh
    · constructor
      · intro known held same seen tag carries
        obtain rfl := Option.some.inj same
        exact known _ List.mem_cons_self seen tag carries
      · intro known form member seen tag carries
        obtain rfl := List.mem_singleton.mp member
        exact known chat rfl seen tag carries

theorem mirrors_clone_shared_iff (mirrors : Mirrors user_id tables) {snapshot admin : Bool}
    {id copy : String} (fresh : copy ∉ tables.chat.keys) :
    Mirrors user_id (clone_shared_chat_by_id user_id tables snapshot admin id copy) ↔
      (snapshot = false → admin = true → CopyGuarded tables (tables.chat.get? id)) := by
  cases snapshot with
  | true =>
    have copied := @mirrors_copy_iff user_id tables mirrors (some ⟨user_id, false, false, none, []⟩)
      copy fresh
    refine iff_of_true (copied.mpr ?_) (by simp)
    rintro chat same _ tag carries
    obtain rfl := Option.some.inj same
    cases carries
  | false =>
    cases admin with
    | true =>
      refine (mirrors_copy_iff mirrors fresh).trans ?_
      simp
    | false => exact iff_of_true mirrors (by simp)

theorem found_own {id : String} {chat : Chat}
    (own : get_chat_by_id_and_user_id user_id tables id = some chat) :
    tables.chat.get? id = some chat ∧ chat.user_id = user_id := by
  obtain ⟨found, owner⟩ := Option.filter_eq_some_iff.mp own
  exact ⟨found, of_decide_eq_true owner⟩

theorem Mirrors.mem_iff (mirrors : Mirrors user_id tables) {id tag : String} {chat : Chat}
    (found : tables.chat.get? id = some chat) :
    tag ∈ tables.tag.keys ↔
      (chat.visible user_id = true ∧ tag ∈ chat.tags) ∨ Elsewhere user_id tables id tag :=
  (mirrors tag).trans (carried_iff found)

theorem mirrors_add_iff (mirrors : Mirrors user_id tables) {id name : String} :
    Mirrors user_id (add_tag_by_id_and_tag_name lowering user_id tables id name) ↔
      ∀ chat, get_chat_by_id_and_user_id user_id tables id = some chat →
        lowering.tagId name ≠ "none" → lowering.tagId name ∉ chat.tags →
          chat.visible user_id = true ∨ lowering.tagId name ∈ tables.tag.keys := by
  unfold add_tag_by_id_and_tag_name
  cases own : get_chat_by_id_and_user_id user_id tables id with
  | none => exact iff_of_true mirrors (by simp)
  | some chat =>
    obtain ⟨found, _⟩ := found_own own
    simp only [Option.some.injEq, forall_eq']
    by_cases nothing : lowering.tagId name = "none" ∨ lowering.tagId name ∈ chat.tags
    · rw [if_pos nothing]
      refine iff_of_true mirrors ?_
      intro named fresh
      exact absurd nothing (not_or.mpr ⟨named, fresh⟩)
    · rw [if_neg nothing]
      rw [not_or] at nothing
      rcases @ensure_tags_exist_cases lowering tables [name] with ⟨clashes, _⟩ | ⟨_, tag, made, keys⟩
      · refine absurd ?_ clashes
        exact (List.nodup_singleton (lowering.tagId name)).filter _
      · rw [made]
        dsimp only
        have carried : ∀ query, Carried user_id
            (setTags { tables with tag := tag } id (chat.tags ++ [lowering.tagId name]).eraseDups) query ↔
              (chat.visible user_id = true ∧
                (query ∈ chat.tags ∨ query = lowering.tagId name)) ∨
                  Elsewhere user_id tables id query := by
          intro query
          refine (@carried_modify user_id { tables with tag := tag } id query chat _ found).trans ?_
          simp [Chat.visible, Elsewhere]
        constructor
        · intro mirrored _ _
          have row := (keys (lowering.tagId name)).mpr (Or.inr ⟨name, List.mem_cons_self, rfl⟩)
          rcases (carried _).mp ((mirrored _).mp row) with ⟨seen, _⟩ | elsewhere
          · exact Or.inl seen
          · exact Or.inr ((mirrors.mem_iff found).mpr (Or.inr elsewhere))
        · intro known query
          rw [tag_setTags, keys query, carried query, mirrors.mem_iff found]
          simp only [List.mem_singleton, exists_eq_left]
          rcases known nothing.1 nothing.2 with seen | row
          · simp only [seen, true_and]
            grind
          · have row := (mirrors.mem_iff found).mp row
            grind

theorem mirrors_delete_tag (mirrors : Mirrors user_id tables) (id name : String) :
    Mirrors user_id (delete_tag_by_id_and_tag_name lowering user_id tables id name) := by
  unfold delete_tag_by_id_and_tag_name
  cases own : get_chat_by_id_and_user_id user_id tables id with
  | none => exact mirrors
  | some chat =>
    obtain ⟨found, _⟩ := found_own own
    dsimp only
    generalize removes : setTags tables id
      (chat.tags.filter (fun tag => decide (tag ≠ lowering.tagId name))).eraseDups = removed
    have carried : ∀ query, Carried user_id removed query ↔
        (chat.visible user_id = true ∧ query ∈ chat.tags ∧ query ≠ lowering.tagId name) ∨
          Elsewhere user_id tables id query := by
      intro query
      rw [← removes]
      refine (carried_modify found).trans ?_
      simp [Chat.visible]
    have rows : removed.tag = tables.tag := by
      rw [← removes]
      rfl
    have left : ∀ query, query ≠ lowering.tagId name →
        (query ∈ tables.tag.keys ↔ Carried user_id removed query) := by
      intro query other
      rw [mirrors.mem_iff found, carried query]
      simp only [other, ne_eq, not_false_eq_true, and_true]
    split
    · rename_i none
      have gone : ¬ Carried user_id removed (lowering.tagId name) := by
        rw [← lowering.tagId_tagId name, ← count_pos_iff, none]
        exact Nat.lt_irrefl 0
      intro query
      rw [delete_tags_by_ids_and_user_id, Dict.mem_keys_foldl_erase, rows, List.mem_singleton]
      constructor
      · rintro ⟨other, row⟩
        exact (left query other).mp row
      · intro carries
        have other : query ≠ lowering.tagId name := by
          rintro rfl
          exact gone carries
        exact ⟨other, (left query other).mpr carries⟩
    · rename_i some
      have stays : Carried user_id removed (lowering.tagId name) := by
        rw [← lowering.tagId_tagId name, ← count_pos_iff]
        exact Nat.pos_of_ne_zero some
      intro query
      rw [rows]
      by_cases same : query = lowering.tagId name
      · subst same
        refine iff_of_true ?_ stays
        rcases (carried _).mp stays with ⟨_, _, other⟩ | elsewhere
        · exact absurd rfl other
        · exact (mirrors.mem_iff found).mpr (Or.inr elsewhere)
      · exact left query same

theorem mirrors_update_iff (mirrors : Mirrors user_id tables) (normal : Normal lowering tables)
    {id : String} {tags : List String} :
    Mirrors user_id (update_chat_tags_by_id lowering user_id tables id tags) ↔
      ∀ chat, tables.chat.get? id = some chat →
        let names := tags.filter (fun tag => decide (lowering.tagId tag ≠ "none"))
        if chat.visible user_id = true then ¬ Clashes lowering tables names
        else Clashes lowering tables names ∨
          ∀ name ∈ names, lowering.tagId name ∈ tables.tag.keys := by
  unfold update_chat_tags_by_id
  cases found : tables.chat.get? id with
  | none => exact iff_of_true mirrors (by simp)
  | some chat =>
    simp only [Option.some.injEq, forall_eq']
    generalize (tags.filter (fun tag => decide (lowering.tagId tag ≠ "none"))) = names
    generalize updates : setTags tables id (names.map lowering.tagId) = updated
    have rows : updated.tag = tables.tag := by
      rw [← updates]
      rfl
    have carried : ∀ query, Carried user_id updated query ↔
        (chat.visible user_id = true ∧ ∃ name ∈ names, lowering.tagId name = query) ∨
          Elsewhere user_id tables id query := by
      intro query
      rw [← updates]
      refine (carried_modify found).trans ?_
      simp [Chat.visible]
    have same_clash : Clashes lowering updated names ↔ Clashes lowering tables names := by
      rw [Clashes, Clashes, rows]
    rcases @ensure_tags_exist_cases lowering updated names with
      ⟨clashes, made⟩ | ⟨smooth, tag, made, keys⟩
    · -- The tags are stored, and no row is made.
      rw [made]
      dsimp only
      rw [same_clash] at clashes
      by_cases seen : chat.visible user_id = true
      · rw [if_pos seen]
        refine iff_of_false ?_ (not_not_intro clashes)
        intro mirrored
        obtain ⟨name, listed, missing⟩ := exists_of_clashes clashes
        rw [← rows] at missing
        exact missing ((mirrored _).mpr ((carried _).mpr (Or.inl ⟨seen, name, listed, rfl⟩)))
      · rw [if_neg seen]
        refine iff_of_true ?_ (Or.inl clashes)
        intro query
        rw [rows, mirrors.mem_iff found, carried query]
        simp [seen]
    · rw [made]
      dsimp only
      rw [same_clash] at smooth
      generalize cleans : delete_orphan_tags_for_user lowering user_id
        { updated with tag := tag }
          (chat.tags.filter (fun tag => decide (tag ∉ names.map lowering.tagId))).eraseDups 0 = cleaned
      have after : ∀ query, Carried user_id cleaned query ↔ Carried user_id updated query := by
        intro query
        rw [← cleans]
        rfl
      -- An id that is kept is one of the new ones, or it was there and is carried.
      have kept : ∀ query, query ∈ cleaned.tag.keys ↔
          (query ∈ tables.tag.keys ∨ ∃ name ∈ names, lowering.tagId name = query) ∧
            (query ∈ chat.tags → (¬ ∃ name ∈ names, lowering.tagId name = query) →
              Carried user_id updated query) := by
        intro query
        rw [← cleans, mem_keys_delete_orphan, count_pos_iff, keys query, rows, List.mem_eraseDups,
          List.mem_filter, decide_eq_true_eq, List.mem_map]
        refine and_congr_right ?_
        intro row
        have own_id : lowering.tagId query = query := by
          rcases row with old | ⟨name, _, rfl⟩
          · exact normal query old
          · exact lowering.tagId_tagId name
        rw [own_id, and_imp]
        rfl
      by_cases seen : chat.visible user_id = true
      · rw [if_pos seen]
        refine iff_of_true ?_ smooth
        intro query
        rw [kept query, after query, mirrors.mem_iff found, carried query]
        simp only [seen, true_and]
        grind
      · rw [if_neg seen]
        have elsewhere : ∀ query, query ∈ tables.tag.keys ↔ Carried user_id updated query := by
          intro query
          rw [mirrors.mem_iff found, carried query]
          simp [seen]
        constructor
        · intro mirrored
          refine Or.inr ?_
          intro name listed
          rw [elsewhere, ← after, ← mirrored, kept]
          refine ⟨Or.inr ⟨name, listed, rfl⟩, ?_⟩
          intro _ other
          exact absurd ⟨name, listed, rfl⟩ other
        · rintro (clashes | known) query
          · exact absurd clashes smooth
          · rw [kept query, after query, ← elsewhere query]
            constructor
            · rintro ⟨old | ⟨name, listed, rfl⟩, _⟩
              · exact old
              · exact known name listed
            · intro row
              exact ⟨Or.inl row, fun _ _ => row⟩

theorem mirrors_archive_iff (mirrors : Mirrors user_id tables) (normal : Normal lowering tables)
    {id : String} :
    Mirrors user_id (archive_chat_by_id lowering user_id tables id) ↔
      ∀ chat, get_chat_by_id_and_user_id user_id tables id = some chat → chat.archived = true →
        if chat.internal = true then
          Clashes lowering tables chat.tags ∨
            ∀ tag ∈ chat.tags, lowering.tagId tag ∈ tables.tag.keys
        else ¬ Clashes lowering tables chat.tags ∧ ∀ tag ∈ chat.tags, lowering.tagId tag = tag := by
  unfold archive_chat_by_id
  cases own : get_chat_by_id_and_user_id user_id tables id with
  | none => exact iff_of_true mirrors (by simp)
  | some chat =>
    obtain ⟨found, owner⟩ := found_own own
    simp only [Option.some.injEq, forall_eq']
    generalize toggles : ({ tables with
      chat := tables.chat.modify id (fun chat => { chat with archived := !chat.archived }) } : Tables) =
        toggled
    have rows : toggled.tag = tables.tag := by
      rw [← toggles]
    have carried : ∀ query, Carried user_id toggled query ↔
        ((chat.archived = true ∧ chat.internal = false) ∧ query ∈ chat.tags) ∨
          Elsewhere user_id tables id query := by
      intro query
      rw [← toggles]
      refine (carried_modify found).trans ?_
      simp [Chat.visible, owner]
    by_cases archived : chat.archived = true
    · -- The chat is shown again, and its rows are made.
      rw [if_pos archived]
      simp only [archived, true_and, forall_const] at carried ⊢
      have hidden : chat.visible user_id = false := by simp [Chat.visible, archived]
      have elsewhere : ∀ query, query ∈ tables.tag.keys ↔ Elsewhere user_id tables id query := by
        intro query
        rw [mirrors.mem_iff found]
        simp [hidden]
      have same_clash : Clashes lowering toggled chat.tags ↔ Clashes lowering tables chat.tags := by
        rw [Clashes, Clashes, rows]
      rcases @ensure_tags_exist_cases lowering toggled chat.tags with
        ⟨clashes, made⟩ | ⟨smooth, tag, made, keys⟩
      · rw [made, Option.getD_none]
        rw [same_clash] at clashes
        by_cases internal : chat.internal = true
        · rw [if_pos internal]
          refine iff_of_true ?_ (Or.inl clashes)
          intro query
          rw [rows, elsewhere query, carried query]
          simp [internal]
        · rw [if_neg internal]
          refine iff_of_false ?_ (fun guarded => guarded.1 clashes)
          intro mirrored
          obtain ⟨name, listed, missing⟩ := exists_of_clashes clashes
          -- A tag without a row would be its own id, and have a row.
          have row : name ∈ tables.tag.keys := by
            rw [← rows, mirrored, carried]
            exact Or.inl ⟨Bool.eq_false_iff.mpr internal, listed⟩
          rw [normal name row] at missing
          exact missing row
      · rw [made, Option.getD_some]
        rw [same_clash] at smooth
        have after : ∀ query, Carried user_id { toggled with tag := tag } query ↔
            Carried user_id toggled query := fun query => Iff.rfl
        by_cases internal : chat.internal = true
        · rw [if_pos internal]
          constructor
          · intro mirrored
            refine Or.inr ?_
            intro name listed
            have row := (mirrored _).mp ((keys _).mpr (Or.inr ⟨name, listed, rfl⟩))
            rw [after, carried] at row
            rw [elsewhere]
            simpa [internal] using row
          · rintro (clashes | known) query
            · exact absurd clashes smooth
            · rw [after query, carried query, ← elsewhere query]
              simp only [internal, Bool.true_eq_false, false_and, false_or]
              rw [keys query, rows]
              constructor
              · rintro (old | ⟨name, listed, rfl⟩)
                · exact old
                · exact known name listed
              · exact Or.inl
        · rw [if_neg internal]
          have shown : chat.internal = false := Bool.eq_false_iff.mpr internal
          constructor
          · intro mirrored
            refine ⟨smooth, ?_⟩
            intro name listed
            have row := (mirrored name).mpr ((after _).mpr ((carried _).mpr (Or.inl ⟨shown, listed⟩)))
            rcases (keys name).mp row with old | ⟨other, _, rfl⟩
            · rw [rows] at old
              exact normal name old
            · exact lowering.tagId_tagId other
          · rintro ⟨_, plain⟩ query
            rw [after query, carried query, keys query, rows, elsewhere query]
            constructor
            · rintro (old | ⟨name, listed, rfl⟩)
              · exact Or.inr old
              · rw [plain name listed]
                exact Or.inl ⟨shown, listed⟩
            · rintro (⟨_, listed⟩ | old)
              · exact Or.inr ⟨query, listed, plain query listed⟩
              · exact Or.inl old
    · -- The chat is hidden, and the rows that nothing else carries go.
      rw [if_neg archived]
      refine iff_of_true ?_ (fun shown => absurd shown archived)
      intro query
      have after : Carried user_id (delete_orphan_tags_for_user lowering user_id toggled chat.tags 0)
          query ↔ Carried user_id toggled query := Iff.rfl
      rw [after, mem_keys_delete_orphan, count_pos_iff, rows]
      constructor
      · rintro ⟨row, kept⟩
        by_cases listed : query ∈ chat.tags
        · rw [← normal query row]
          exact kept listed
        · rw [carried query]
          rcases (mirrors.mem_iff found).mp row with ⟨_, carries⟩ | elsewhere
          · exact absurd carries listed
          · exact Or.inr elsewhere
      · intro carries
        have elsewhere : Elsewhere user_id tables id query := by
          simpa [archived] using (carried query).mp carries
        have row := (mirrors.mem_iff found).mpr (Or.inr elsewhere)
        refine ⟨row, ?_⟩
        intro _
        rw [normal query row]
        exact carries

theorem mirrors_iff_of_nothing (rows : after.tag = tables.tag)
    (nothing : ∀ tag, ¬ Carried user_id after tag) :
    Mirrors user_id after ↔ tables.tag.keys = [] := by
  rw [List.eq_nil_iff_forall_not_mem]
  constructor
  · intro mirrored tag row
    rw [← rows, mirrored tag] at row
    exact nothing tag row
  · intro none tag
    rw [rows]
    exact iff_of_false (none tag) (nothing tag)

theorem get?_setArchived {archived : Bool} {id : String} {chat : Chat}
    (found : (setArchived user_id tables archived).chat.get? id = some chat)
    (own : chat.user_id = user_id) :
    ∃ old, tables.chat.get? id = some old ∧ old.user_id = user_id ∧
      chat = { old with archived := archived } := by
  rw [setArchived, Dict.get?_mapValue, Option.map_eq_some_iff] at found
  obtain ⟨old, before, rfl⟩ := found
  by_cases same : old.user_id = user_id
  · exact ⟨old, before, same, if_pos same⟩
  · rw [if_neg same] at own
    exact absurd own same

theorem own_of_visible {chat : Chat} (seen : chat.visible user_id = true) :
    chat.user_id = user_id ∧ chat.archived = false ∧ chat.internal = false := by
  simpa [Chat.visible, and_assoc] using seen

theorem mirrors_archive_all_iff :
    Mirrors user_id (setArchived user_id tables true) ↔ tables.tag.keys = [] := by
  refine mirrors_iff_of_nothing rfl ?_
  rintro tag ⟨id, chat, found, seen, _⟩
  obtain ⟨own, shown, _⟩ := own_of_visible seen
  obtain ⟨old, _, _, rfl⟩ := get?_setArchived found own
  cases shown

theorem mirrors_unarchive_all_iff (mirrors : Mirrors user_id tables) :
    Mirrors user_id (setArchived user_id tables false) ↔
      ∀ id chat, tables.chat.get? id = some chat → chat.user_id = user_id → chat.internal = false →
        ∀ tag ∈ chat.tags, tag ∈ tables.tag.keys := by
  have shown : ∀ id chat, tables.chat.get? id = some chat → chat.user_id = user_id →
      chat.internal = false → ∀ tag ∈ chat.tags,
        Carried user_id (setArchived user_id tables false) tag := by
    intro id chat found own internal tag carries
    refine ⟨id, { chat with archived := false }, ?_, by simp [Chat.visible, own, internal], carries⟩
    rw [setArchived, Dict.get?_mapValue, found, Option.map_some, if_pos own]
  have rows : (setArchived user_id tables false).tag = tables.tag := rfl
  rw [mirrors_iff_of_rows mirrors rows]
  constructor
  · intro same id chat found own internal tag carries
    rw [mirrors tag, ← same tag]
    exact shown id chat found own internal tag carries
  · intro known tag
    constructor
    · rintro ⟨id, chat, found, seen, carries⟩
      obtain ⟨own, _, internal⟩ := own_of_visible seen
      obtain ⟨old, before, owner, rfl⟩ := get?_setArchived found own
      exact (mirrors tag).mp (known id old before owner internal tag carries)
    · rintro ⟨id, chat, found, seen, carries⟩
      obtain ⟨own, _, internal⟩ := own_of_visible seen
      exact shown id chat found own internal tag carries

theorem mirrors_delete_all_iff :
    Mirrors user_id (delete_all_user_chats user_id tables) ↔ tables.tag.keys = [] := by
  refine mirrors_iff_of_nothing rfl ?_
  rintro tag ⟨id, chat, found, seen, _⟩
  rw [delete_all_user_chats, Dict.get?_filterMapValue, Option.bind_eq_some_iff] at found
  obtain ⟨old, _, stays⟩ := found
  split at stays
  · cases stays
  · rename_i foreign
    obtain rfl := Option.some.inj stays
    exact foreign (own_of_visible seen).1

theorem carried_erase {id tag : String} {cleaned : Tables} (same : cleaned.chat = tables.chat)
    {gone : Chat → Prop} [DecidablePred gone] (hidden : ∀ chat, gone chat → chat.internal = true) :
    Carried user_id { cleaned with
      chat := (cleaned.chat.filterMapValue (fun child =>
        if gone child then none else some child)).erase id } tag ↔
      Elsewhere user_id tables id tag := by
  constructor
  · rintro ⟨other, chat, found, carries⟩
    rw [Dict.get?_erase] at found
    split at found
    · cases found
    · rename_i different
      rw [Dict.get?_filterMapValue, Option.bind_eq_some_iff] at found
      obtain ⟨old, before, stays⟩ := found
      split at stays
      · cases stays
      · obtain rfl := Option.some.inj stays
        rw [same] at before
        exact ⟨other, old, Ne.symm different, before, carries⟩
  · rintro ⟨other, chat, different, found, seen, carries⟩
    refine ⟨other, chat, ?_, seen, carries⟩
    have stays : ¬ gone chat := by
      intro goes
      have internal := (own_of_visible seen).2.2
      rw [hidden chat goes] at internal
      cases internal
    rw [Dict.get?_erase, if_neg (Ne.symm different), Dict.get?_filterMapValue, same, found,
      Option.bind_some, if_neg stays]

theorem mirrors_delete_iff (mirrors : Mirrors user_id tables) (normal : Normal lowering tables)
    {admin : Bool} {id : String} :
    Mirrors user_id (delete_chat_by_id lowering user_id tables admin id) ↔ ∀ chat,
      (if admin then tables.chat.get? id else get_chat_by_id_and_user_id user_id tables id) =
          some chat →
        chat.visible user_id = false → ∀ tag ∈ chat.tags, tag ∈ tables.tag.keys →
          count_chats_by_tag_id lowering user_id tables tag ≠ 1 := by
  unfold delete_chat_by_id
  cases own : (if admin then tables.chat.get? id
    else get_chat_by_id_and_user_id user_id tables id) with
  | none => exact iff_of_true mirrors (by simp)
  | some chat =>
    have found : tables.chat.get? id = some chat := by
      split at own
      · exact own
      · exact (found_own own).1
    simp only [Option.some.injEq, forall_eq']
    have carried : ∀ query, Carried user_id { delete_orphan_tags_for_user lowering user_id tables
        chat.tags 1 with
          chat := ((delete_orphan_tags_for_user lowering user_id tables chat.tags
            1).chat.filterMapValue (fun child =>
              if child.user_id = chat.user_id ∧ child.internal = true ∧
                child.parent_chat_id = some id then none else some child)).erase id } query ↔
        Elsewhere user_id tables id query := by
      intro query
      refine carried_erase rfl ?_
      rintro child ⟨_, internal, _⟩
      exact internal
    have mirrored_iff : ∀ query,
        ((query ∈ tables.tag.keys ∧ (query ∈ chat.tags →
            1 < count_chats_by_tag_id lowering user_id tables query) ↔
          Elsewhere user_id tables id query) ↔
        (chat.visible user_id = false → query ∈ chat.tags → query ∈ tables.tag.keys →
          count_chats_by_tag_id lowering user_id tables query ≠ 1)) := by
      intro query
      by_cases seen : chat.visible user_id = true
      · refine iff_of_true ?_ (by simp [seen])
        rw [mirrors.mem_iff found]
        by_cases listed : query ∈ chat.tags
        · have row := (mirrors.mem_iff found).mpr (Or.inl ⟨seen, listed⟩)
          have own_id := normal query row
          have alone := @one_lt_count_iff lowering user_id tables id query chat found seen
            (by rw [own_id]; exact listed)
          rw [own_id] at alone
          simp only [seen, listed, true_and, true_or, forall_const]
          exact alone
        · simp [listed]
      · have elsewhere : query ∈ tables.tag.keys ↔ Elsewhere user_id tables id query := by
          rw [mirrors.mem_iff found]
          simp [seen]
        rw [← elsewhere, and_iff_left_iff_imp]
        constructor
        · intro enough _ listed row alone
          exact absurd (enough row listed) (by omega)
        · intro guarded row listed
          have counted : 0 < count_chats_by_tag_id lowering user_id tables query := by
            rw [count_pos_iff, normal query row]
            exact (mirrors query).mp row
          have more := guarded (Bool.eq_false_iff.mpr seen) listed row
          omega
    constructor
    · intro mirrored hidden tag listed row
      refine (mirrored_iff tag).mp ?_ hidden listed row
      rw [← carried tag, ← mirrored tag, mem_keys_delete_orphan]
    · intro guarded query
      rw [carried query, mem_keys_delete_orphan]
      exact (mirrored_iff query).mpr (fun hidden listed row => guarded hidden query listed row)

theorem page_isEmpty {α : Type} (skip limit : Option Int) (rows : List α) :
    (page skip limit rows).isEmpty = true ↔ rows.length ≤ (skip.getD 0).toNat := by
  rw [page, List.isEmpty_iff]
  split
  · exact List.drop_eq_nil_iff
  · rename_i bounded
    rw [List.take_eq_nil_iff, List.drop_eq_nil_iff]
    have some : (limit.getD 0).toNat ≠ 0 := by omega
    simp only [some, false_or]

theorem mirrors_list_iff (mirrors : Mirrors user_id tables) {name : String}
    {skip limit : Option Int} :
    Mirrors user_id (get_user_chat_list_by_tag_name lowering user_id tables name skip limit) ↔
      ((listedWith user_id tables (lowering.tagId name)).length ≤ (skip.getD 0).toNat →
        lowering.tagId name ∉ tables.tag.keys) := by
  rw [get_user_chat_list_by_tag_name]
  simp only [page_isEmpty]
  split
  · rename_i empty
    simp only [empty, forall_const]
    constructor
    · intro mirrored row
      have carries := (mirrors _).mp row
      have left := (mirrored (lowering.tagId name)).mpr carries
      rw [delete_tags_by_ids_and_user_id, Dict.mem_keys_foldl_erase] at left
      exact left.1 List.mem_cons_self
    · intro none query
      rw [delete_tags_by_ids_and_user_id, Dict.mem_keys_foldl_erase, List.mem_singleton, mirrors query]
      refine and_iff_right_of_imp ?_
      rintro carries rfl
      exact none ((mirrors _).mpr carries)
  · rename_i more
    exact iff_of_true mirrors (fun empty => absurd empty more)

end Requests

section Steps

variable {lowering : Lowering} {user_id : String} {tables : Tables}

theorem step_eq {request : Request} {after : Tables}
    (stepped : step lowering user_id tables request = some after) :
    request.made.Nodup ∧ (∀ id ∈ request.made, id ∉ tables.chat.keys) ∧
      handle lowering user_id tables request = after := by
  unfold step at stepped
  split at stepped
  · rename_i fresh
    exact ⟨fresh.1, fresh.2, Option.some.inj stepped⟩
  · cases stepped

theorem mirrors_step_iff (mirrors : Mirrors user_id tables) (normal : Normal lowering tables)
    {request : Request} {after : Tables}
    (stepped : step lowering user_id tables request = some after) :
    Mirrors user_id after ↔ Guarded lowering user_id tables request := by
  obtain ⟨distinct, fresh, rfl⟩ := step_eq stepped
  cases request with
  | insert_new_chat id =>
    refine (@mirrors_import_iff user_id tables mirrors [(id, ⟨false, none, []⟩)] distinct fresh).trans
      (iff_of_true ?_ trivial)
    intro form member _ tag carries
    obtain rfl := List.mem_singleton.mp member
    cases carries
  | import_chats chats => exact mirrors_import_iff mirrors distinct fresh
  | clone_chat_by_id id copy => exact mirrors_copy_iff mirrors (fresh copy List.mem_cons_self)
  | clone_shared_chat_by_id snapshot admin id copy =>
    exact mirrors_clone_shared_iff mirrors (fresh copy List.mem_cons_self)
  | fork_chat_by_id id copy => exact mirrors_copy_iff mirrors (fresh copy List.mem_cons_self)
  | add_tag_by_id_and_tag_name id name => exact mirrors_add_iff mirrors
  | delete_tag_by_id_and_tag_name id name =>
    exact iff_of_true (mirrors_delete_tag mirrors id name) trivial
  | update_chat_tags_by_id id tags => exact mirrors_update_iff mirrors normal
  | archive_chat_by_id id => exact mirrors_archive_iff mirrors normal
  | archive_all_chats => exact mirrors_archive_all_iff
  | unarchive_all_chats => exact mirrors_unarchive_all_iff mirrors
  | delete_chat_by_id admin id => exact mirrors_delete_iff mirrors normal
  | delete_all_user_chats => exact mirrors_delete_all_iff
  | get_user_chat_list_by_tag_name name skip limit => exact mirrors_list_iff mirrors

theorem Normal.of_rows (normal : Normal lowering tables) {after : Tables}
    (rows : ∀ query ∈ after.tag.keys,
      query ∈ tables.tag.keys ∨ ∃ name, lowering.tagId name = query) : Normal lowering after := by
  intro query row
  rcases rows query row with old | ⟨name, rfl⟩
  · exact normal query old
  · exact lowering.tagId_tagId name

theorem Normal.ensure (normal : Normal lowering tables) {names : List String} {after : Tables}
    (made : ensure_tags_exist lowering tables names = some after) : Normal lowering after := by
  rcases @ensure_tags_exist_cases lowering tables names with ⟨_, none⟩ | ⟨_, tag, some, keys⟩
  · rw [none] at made
    cases made
  · rw [some] at made
    obtain rfl := Option.some.inj made
    refine normal.of_rows ?_
    intro query row
    rcases (keys query).mp row with old | ⟨name, _, same⟩
    · exact Or.inl old
    · exact Or.inr ⟨name, same⟩

theorem Normal.delete (normal : Normal lowering tables) (ids : List String) :
    Normal lowering (delete_tags_by_ids_and_user_id tables ids) := by
  refine normal.of_rows ?_
  intro query row
  rw [delete_tags_by_ids_and_user_id, Dict.mem_keys_foldl_erase] at row
  exact Or.inl row.2

theorem Normal.handle (normal : Normal lowering tables) (request : Request) :
    Normal lowering (handle lowering user_id tables request) := by
  cases request with
  | insert_new_chat id => exact normal
  | import_chats chats => exact normal
  | clone_chat_by_id id copy =>
    dsimp only [Tags.handle, copyOf]
    split
    · exact normal
    · exact normal
  | clone_shared_chat_by_id snapshot admin id copy =>
    dsimp only [Tags.handle, clone_shared_chat_by_id, copyOf]
    split
    · exact normal
    · split
      · split
        · exact normal
        · exact normal
      · exact normal
  | fork_chat_by_id id copy =>
    dsimp only [Tags.handle, copyOf]
    split
    · exact normal
    · exact normal
  | add_tag_by_id_and_tag_name id name =>
    dsimp only [Tags.handle, add_tag_by_id_and_tag_name]
    split
    · exact normal
    · split
      · exact normal
      · split
        · exact normal
        · rename_i made
          have ensured := normal.ensure made
          exact ensured
  | delete_tag_by_id_and_tag_name id name =>
    dsimp only [Tags.handle, delete_tag_by_id_and_tag_name]
    split
    · exact normal
    · rename_i chat _
      have removed : Normal lowering (setTags tables id
          (chat.tags.filter (fun tag => decide (tag ≠ lowering.tagId name))).eraseDups) := normal
      split
      · exact removed.delete _
      · exact removed
  | update_chat_tags_by_id id tags =>
    dsimp only [Tags.handle, update_chat_tags_by_id]
    split
    · exact normal
    · have updated : Normal lowering (setTags tables id
          ((tags.filter (fun tag => decide (lowering.tagId tag ≠ "none"))).map lowering.tagId)) :=
        normal
      split
      · exact updated
      · rename_i made
        exact (updated.ensure made).delete _
  | archive_chat_by_id id =>
    dsimp only [Tags.handle, archive_chat_by_id]
    split
    · exact normal
    · rename_i chat _
      have toggled : Normal lowering { tables with
          chat := tables.chat.modify id (fun chat => { chat with archived := !chat.archived }) } :=
        normal
      split
      · cases made : ensure_tags_exist lowering { tables with
            chat := tables.chat.modify id (fun chat => { chat with archived := !chat.archived }) }
          chat.tags with
        | none => exact toggled
        | some after => exact toggled.ensure made
      · exact toggled.delete _
  | archive_all_chats => exact normal
  | unarchive_all_chats => exact normal
  | delete_chat_by_id admin id =>
    dsimp only [Tags.handle, delete_chat_by_id]
    split
    · exact normal
    · exact normal.delete _
  | delete_all_user_chats => exact normal
  | get_user_chat_list_by_tag_name name skip limit =>
    dsimp only [Tags.handle, get_user_chat_list_by_tag_name]
    split
    · exact normal.delete _
    · exact normal

theorem mirrors_start (user_id : String) (others : Dict String Chat) :
    Mirrors user_id (start user_id others) := by
  intro tag
  refine iff_of_false (List.not_mem_nil) ?_
  rintro ⟨id, chat, found, seen, _⟩
  rw [start, Dict.get?_filterMapValue, Option.bind_eq_some_iff] at found
  obtain ⟨old, _, stays⟩ := found
  split at stays
  · cases stays
  · rename_i foreign
    obtain rfl := Option.some.inj stays
    exact foreign (own_of_visible seen).1

end Steps

/-- The rows mirror the tags in every state of a run exactly when every request of it is guarded. -/
theorem tags_mirrored_iff (lowering : Lowering) (user_id : String) (others : Dict String Chat)
    (run : List Request) (final : Tables)
    (ran : run.foldlM (step lowering user_id) (start user_id others) = some final) :
    Runs.Throughout (Mirrors user_id) (step lowering user_id) (start user_id others) run ↔
      Runs.Always (fun earlier request => ∀ tables,
        earlier.foldlM (step lowering user_id) (start user_id others) = some tables →
          Guarded lowering user_id tables request) run := by
  refine @Runs.throughout_iff_of_invariant Request Tables (step lowering user_id)
    (Guarded lowering user_id) (Mirrors user_id) (Normal lowering) ?_ ?_ _ final run ?_
      (mirrors_start user_id others) ran
  · intro old request new normal stepped
    obtain ⟨_, _, rfl⟩ := step_eq stepped
    exact normal.handle request
  · intro old request new normal mirrors stepped
    exact mirrors_step_iff mirrors normal stepped
  · rintro query ⟨⟩

/-- `str.lower` on texts that are in lower case. -/
def plain : Lowering := ⟨id, fun _ => rfl, fun _ none => none⟩

def tagged : List Request :=
  [.insert_new_chat "c", .add_tag_by_id_and_tag_name "c" "work"]

theorem tagged_mirrored :
    Runs.Throughout (Mirrors "alice") (step plain "alice") (start "alice" Dict.empty) tagged := by
  have runs : (tagged.foldlM (step plain "alice") (start "alice" Dict.empty)).isSome = true := by
    decide +kernel
  obtain ⟨final, ran⟩ := Option.isSome_iff_exists.mp runs
  apply (tags_mirrored_iff plain "alice" Dict.empty tagged final ran).mpr
  refine Runs.always_cons.mpr ⟨fun _ _ => trivial, Runs.always_cons.mpr ⟨?_, Runs.always_nil _⟩⟩
  intro tables reached chat own _ _
  have made : [Request.insert_new_chat "c"].foldlM (step plain "alice") (start "alice" Dict.empty) =
      some ⟨Dict.empty.set "c" ⟨"alice", false, false, none, []⟩, Dict.empty⟩ := rfl
  obtain rfl := Option.some.inj (made.symm.trans reached)
  have same : some (Chat.mk "alice" false false none []) = some chat := own
  obtain rfl := Option.some.inj same
  exact Or.inl rfl

/-- The row stays when all chats are archived. -/
theorem archivedAll_not_mirrored :
    ¬ Runs.Throughout (Mirrors "alice") (step plain "alice") (start "alice" Dict.empty)
      (tagged ++ [.archive_all_chats]) := by
  intro mirrored
  have runs : (tagged.foldlM (step plain "alice") (start "alice" Dict.empty)).any
      (fun tables => !tables.tag.keys.isEmpty) = true := by
    decide +kernel
  obtain ⟨tables, reached, left⟩ := (Option.any_eq_true _ _).mp runs
  have archived : (tagged ++ [Request.archive_all_chats]).foldlM (step plain "alice")
      (start "alice" Dict.empty) = some (setArchived "alice" tables true) := by
    rw [List.foldlM_append, reached]
    rfl
  have none := mirrors_archive_all_iff.mp (mirrored _ [] (List.append_nil _).symm _ archived)
  rw [none] at left
  cases left

end OpenWebui.Tags
