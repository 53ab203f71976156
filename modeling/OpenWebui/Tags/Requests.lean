import OpenWebui.Base.Dict

/-! The tags of the chats of one user, and the rows of the tag table that are made and deleted with
them. -/

namespace OpenWebui.Tags

/-- `str.lower`, which leaves what is in lower case, and makes no spaces. -/
structure Lowering where
  lower : String → String
  again : ∀ text, lower (lower text) = lower text
  spaces : ∀ text, ' ' ∉ text.toList → ' ' ∉ (lower text).toList

/-- `text.replace(' ', '_')` -/
def underscored (text : String) : String :=
  String.ofList (text.toList.map (fun char => if char = ' ' then '_' else char))

def Lowering.tagId (lowering : Lowering) (name : String) : String := lowering.lower (underscored name)

theorem underscored_of_no_spaces {text : String} (none : ' ' ∉ text.toList) :
    underscored text = text := by
  have same : text.toList.map (fun char => if char = ' ' then '_' else char) = text.toList := by
    rw [List.map_congr_left, List.map_id']
    intro char member
    have other : char ≠ ' ' := by
      rintro rfl
      exact none member
    exact if_neg other
  rw [underscored, same, String.ofList_toList]

theorem underscored_no_spaces (text : String) : ' ' ∉ (underscored text).toList := by
  rw [underscored, String.toList_ofList, List.mem_map]
  rintro ⟨char, _, made⟩
  split at made
  · cases made
  · rename_i other
    exact other made

@[simp] theorem Lowering.tagId_tagId (lowering : Lowering) (name : String) :
    lowering.tagId (lowering.tagId name) = lowering.tagId name := by
  have none := lowering.spaces _ (underscored_no_spaces name)
  rw [Lowering.tagId, Lowering.tagId, underscored_of_no_spaces none, lowering.again]

structure Chat where
  user_id : String
  archived : Bool
  internal : Bool
  parent_chat_id : Option String
  tags : List String

/-- The chats of all users, and the tag rows of one user: the name under the id. -/
structure Tables where
  chat : Dict String Chat
  tag : Dict String String

structure ChatImportForm where
  internal : Bool
  parent_chat_id : Option String
  tags : List String

/-- The requests of the user that pass their permission checks. A fork that is refused for the
messages of the chat is none. Negative numbers are read as the database reads them. -/
inductive Request where
  | insert_new_chat (id : String)
  | import_chats (chats : List (String × ChatImportForm))
  | clone_chat_by_id (id copy : String)
  | clone_shared_chat_by_id (snapshot admin : Bool) (id copy : String)
  | fork_chat_by_id (id copy : String)
  | add_tag_by_id_and_tag_name (id name : String)
  | delete_tag_by_id_and_tag_name (id name : String)
  | update_chat_tags_by_id (id : String) (tags : List String)
  | archive_chat_by_id (id : String)
  | archive_all_chats
  | unarchive_all_chats
  | delete_chat_by_id (admin : Bool) (id : String)
  | delete_all_user_chats
  | get_user_chat_list_by_tag_name (name : String) (skip limit : Option Int)

section Handlers

variable (lowering : Lowering) (user_id : String) (tables : Tables)

def ensure_tags_exist (names : List String) : Option Tables :=
  let new_tags := (names.map (fun name => (lowering.tagId name, name))).filter (fun row =>
    decide (row.1 ∉ tables.tag.keys))
  if (new_tags.map Prod.fst).Nodup then
    some { tables with tag := new_tags.foldl (fun tag row => tag.set row.1 row.2) tables.tag }
  else none

def delete_tags_by_ids_and_user_id (ids : List String) : Tables :=
  { tables with tag := ids.foldl Dict.erase tables.tag }

def Chat.visible (chat : Chat) : Bool :=
  decide (chat.user_id = user_id) && !chat.archived && !chat.internal

def count_chats_by_tag_id (tag_id : String) : Nat :=
  (tables.chat.entries.filter (fun row =>
    row.2.visible user_id && decide (lowering.tagId tag_id ∈ row.2.tags))).length

def delete_orphan_tags_for_user (tag_ids : List String) (threshold : Nat) : Tables :=
  delete_tags_by_ids_and_user_id tables (tag_ids.filter (fun tag_id =>
    decide (count_chats_by_tag_id lowering user_id tables tag_id ≤ threshold)))

def get_chat_by_id_and_user_id (id : String) : Option Chat :=
  (tables.chat.get? id).filter (fun chat => decide (chat.user_id = user_id))

def setTags (id : String) (tags : List String) : Tables :=
  { tables with chat := tables.chat.modify id (fun chat => { chat with tags := tags }) }

def import_chats (chats : List (String × ChatImportForm)) : Tables :=
  { tables with
    chat := chats.foldl (fun rows form =>
      rows.set form.1 ⟨user_id, false, form.2.internal, form.2.parent_chat_id, form.2.tags⟩)
        tables.chat }

def copyOf (found : Option Chat) (copy : String) : Tables :=
  match found with
  | none => tables
  | some chat => import_chats user_id tables [(copy, ⟨chat.internal, chat.parent_chat_id, chat.tags⟩)]

def clone_shared_chat_by_id (snapshot admin : Bool) (id copy : String) : Tables :=
  if snapshot then import_chats user_id tables [(copy, ⟨false, none, []⟩)]
  else if admin then copyOf user_id tables (tables.chat.get? id) copy
  else tables

def add_tag_by_id_and_tag_name (id name : String) : Tables :=
  match get_chat_by_id_and_user_id user_id tables id with
  | none => tables
  | some chat =>
    let tag_id := lowering.tagId name
    if tag_id = "none" ∨ tag_id ∈ chat.tags then tables
    else
      match ensure_tags_exist lowering tables [name] with
      | none => tables
      | some ensured => setTags ensured id (chat.tags ++ [tag_id]).eraseDups

def delete_tag_by_id_and_tag_name (id name : String) : Tables :=
  match get_chat_by_id_and_user_id user_id tables id with
  | none => tables
  | some chat =>
    let tag_id := lowering.tagId name
    let removed := setTags tables id (chat.tags.filter (fun tag => decide (tag ≠ tag_id))).eraseDups
    if count_chats_by_tag_id lowering user_id removed tag_id = 0 then
      delete_tags_by_ids_and_user_id removed [tag_id]
    else removed

def update_chat_tags_by_id (id : String) (tags : List String) : Tables :=
  match tables.chat.get? id with
  | none => tables
  | some chat =>
    let new_tags := tags.filter (fun tag => decide (lowering.tagId tag ≠ "none"))
    let new_tag_ids := new_tags.map lowering.tagId
    let updated := setTags tables id new_tag_ids
    match ensure_tags_exist lowering updated new_tags with
    | none => updated
    | some ensured =>
      delete_orphan_tags_for_user lowering user_id ensured
        (chat.tags.filter (fun tag => decide (tag ∉ new_tag_ids))).eraseDups 0

def archive_chat_by_id (id : String) : Tables :=
  match get_chat_by_id_and_user_id user_id tables id with
  | none => tables
  | some chat =>
    let toggled := { tables with
      chat := tables.chat.modify id (fun chat => { chat with archived := !chat.archived }) }
    if chat.archived then (ensure_tags_exist lowering toggled chat.tags).getD toggled
    else delete_orphan_tags_for_user lowering user_id toggled chat.tags 0

def setArchived (archived : Bool) : Tables :=
  { tables with
    chat := tables.chat.mapValue (fun _ chat =>
      if chat.user_id = user_id then { chat with archived := archived } else chat) }

def delete_chat_by_id (admin : Bool) (id : String) : Tables :=
  match if admin then tables.chat.get? id else get_chat_by_id_and_user_id user_id tables id with
  | none => tables
  | some chat =>
    let cleaned := delete_orphan_tags_for_user lowering user_id tables chat.tags 1
    let alone := cleaned.chat.filterMapValue (fun child =>
      if child.user_id = chat.user_id ∧ child.internal = true ∧ child.parent_chat_id = some id then
        none
      else some child)
    { cleaned with chat := alone.erase id }

def delete_all_user_chats : Tables :=
  { tables with
    chat := tables.chat.filterMapValue (fun chat =>
      if chat.user_id = user_id then none else some chat) }

def listedWith (tag_id : String) : List String :=
  (tables.chat.entries.filter (fun row => decide (row.2.user_id = user_id) && !row.2.internal &&
    decide (tag_id ∈ row.2.tags))).map Prod.fst

def page {α : Type} (skip limit : Option Int) (rows : List α) : List α :=
  let rest := rows.drop (skip.getD 0).toNat
  if limit.getD 0 ≤ 0 then rest else rest.take (limit.getD 0).toNat

def get_user_chat_list_by_tag_name (name : String) (skip limit : Option Int) : Tables :=
  let tag_id := lowering.tagId name
  if (page skip limit (listedWith user_id tables tag_id)).isEmpty then
    delete_tags_by_ids_and_user_id tables [tag_id]
  else tables

def handle : Request → Tables
  | .insert_new_chat id => import_chats user_id tables [(id, ⟨false, none, []⟩)]
  | .import_chats chats => import_chats user_id tables chats
  | .clone_chat_by_id id copy =>
    copyOf user_id tables (get_chat_by_id_and_user_id user_id tables id) copy
  | .clone_shared_chat_by_id snapshot admin id copy =>
    clone_shared_chat_by_id user_id tables snapshot admin id copy
  | .fork_chat_by_id id copy =>
    copyOf user_id tables (get_chat_by_id_and_user_id user_id tables id) copy
  | .add_tag_by_id_and_tag_name id name => add_tag_by_id_and_tag_name lowering user_id tables id name
  | .delete_tag_by_id_and_tag_name id name =>
    delete_tag_by_id_and_tag_name lowering user_id tables id name
  | .update_chat_tags_by_id id tags => update_chat_tags_by_id lowering user_id tables id tags
  | .archive_chat_by_id id => archive_chat_by_id lowering user_id tables id
  | .archive_all_chats => setArchived user_id tables true
  | .unarchive_all_chats => setArchived user_id tables false
  | .delete_chat_by_id admin id => delete_chat_by_id lowering user_id tables admin id
  | .delete_all_user_chats => delete_all_user_chats user_id tables
  | .get_user_chat_list_by_tag_name name skip limit =>
    get_user_chat_list_by_tag_name lowering user_id tables name skip limit

def Request.made : Request → List String
  | .insert_new_chat id => [id]
  | .import_chats chats => chats.map Prod.fst
  | .clone_chat_by_id _ copy => [copy]
  | .clone_shared_chat_by_id _ _ _ copy => [copy]
  | .fork_chat_by_id _ copy => [copy]
  | _ => []

def step (request : Request) : Option Tables :=
  if request.made.Nodup ∧ ∀ id ∈ request.made, id ∉ tables.chat.keys then
    some (handle lowering user_id tables request)
  else none

end Handlers

def start (user_id : String) (others : Dict String Chat) : Tables :=
  ⟨others.filterMapValue (fun chat => if chat.user_id = user_id then none else some chat), Dict.empty⟩

end OpenWebui.Tags
