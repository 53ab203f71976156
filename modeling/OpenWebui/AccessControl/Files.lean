import OpenWebui.AccessGrants.Deciders

/-! `has_access_to_file`: the knowledge bases, workspace models, channels and shared chats
through which a user who does not own a file reaches it. -/

namespace OpenWebui.AccessControl

open AccessGrants

structure File where
  id : String
  user_id : String
  file_meta : Option Fields

structure Knowledge where
  id : String
  user_id : String
  deriving DecidableEq

structure KnowledgeFile where
  knowledge_id : String
  file_id : String
  deriving DecidableEq

/-- A workspace model, with the knowledge items of its meta. -/
structure Model where
  id : String
  user_id : String
  base_model_id : Option String
  knowledge : Option (List Json)

structure Channel where
  id : String
  user_id : String
  type : Option String
  deleted_at : Option Int
  archived_at : Option Int

structure ChannelFile where
  channel_id : String
  file_id : String

structure ChannelMember where
  channel_id : String
  user_id : String
  is_active : Bool

structure Chat where
  id : String
  share_id : Option String

structure ChatFile where
  chat_id : String
  file_id : String

/-- The tables that decide who reaches a file. Ids are primary keys. -/
structure FileDatabase extends AccessGrants.Database where
  file : List File
  knowledge : List Knowledge
  knowledge_file : List KnowledgeFile
  model : List Model
  channel : List Channel
  channel_file : List ChannelFile
  channel_member : List ChannelMember
  chat : List Chat
  chat_file : List ChatFile
  knowledge_unique : (knowledge.map (fun row => row.id)).Nodup
  model_unique : (model.map (fun row => row.id)).Nodup

section Queries

variable (db : FileDatabase)

def get_file_by_id (file_id : String) : Option File :=
  db.file.find? (fun file => decide (file.id = file_id))

def get_knowledges_by_file_id (file_id : String) : List Knowledge :=
  db.knowledge.flatMap (fun knowledge =>
    (db.knowledge_file.filter (fun link =>
      decide (link.knowledge_id = knowledge.id ∧ link.file_id = file_id))).map
        (fun _ => knowledge))

def get_knowledge_by_id (id : Json) : Option Knowledge :=
  db.knowledge.find? (fun knowledge => decide (Json.str knowledge.id = id))

def channelAllowed (user_id : String) (channel : Channel) : Bool :=
  if channel.type = some "group" ∨ channel.type = some "dm" then
    db.channel_member.any (fun member =>
      decide (member.channel_id = channel.id ∧ member.user_id = user_id) && member.is_active)
  else
    !(has_permission_filter db.toDatabase [⟨channel.id, some channel.user_id⟩] (some user_id)
      ((get_groups_by_member_id db.toDatabase user_id).map (fun group => group.id)) "channel"
      "read").isEmpty

def get_channels_by_file_id_and_user_id (file_id user_id : String) : List Channel :=
  let channel_ids := (db.channel_file.filter (fun row => decide (row.file_id = file_id))).map
    (fun row => row.channel_id)
  (db.channel.filter (fun channel =>
    decide (channel.id ∈ channel_ids) && channel.deleted_at.isNone && channel.archived_at.isNone)).filter
      (channelAllowed db user_id)

def get_shared_chat_ids_by_file_id (file_id : String) : List String :=
  db.chat.flatMap (fun chat =>
    (db.chat_file.filter (fun link =>
      decide (link.chat_id = chat.id ∧ link.file_id = file_id) && chat.share_id.isSome)).map
        (fun _ => chat.id))

def get_models : List Model := db.model.filter (fun model => model.base_model_id.isSome)

def get_models_by_user_id (user_id permission : String) (user_group_ids : List String) :
    List Model :=
  let models := get_models db
  let accessible_ids := get_accessible_resource_ids db.toDatabase user_id "model"
    ((models.filter (fun model => decide (model.user_id ≠ user_id))).map (fun model => model.id))
    permission (some user_group_ids)
  models.filter (fun model => decide (model.user_id = user_id ∨ model.id ∈ accessible_ids))

def isAttachment (file : File) : Json → Bool
  | .obj item =>
    decide (getField item "type" = .str "file" ∧ getField item "id" = .str file.id)
  | _ => false

def attaches (file : File) (model : Model) : Bool :=
  (model.knowledge.getD []).any (isAttachment file)

def mayUse (access_type user_id : String) (user_group_ids : List String) (knowledge : Knowledge) :
    Bool :=
  decide (knowledge.user_id = user_id) ||
    has_access db.toDatabase user_id "knowledge" knowledge.id access_type (some user_group_ids)

def confers (access_type owner : String) (file : File) : Bool :=
  decide (access_type = "read" ∨ owner = file.user_id)

def collectionAllows (access_type user_id : String) (user_group_ids : List String) (file : File) :
    Bool :=
  let knowledge_base_id := (file.file_meta.map (fun fields => getField fields "collection_name")).getD
    .null
  if knowledge_base_id.truthy then
    (get_knowledge_by_id db knowledge_base_id).any (fun knowledge =>
      confers access_type knowledge.user_id file && mayUse db access_type user_id user_group_ids
        knowledge)
  else false

def sharedChatAllows (access_type user_id : String) (user_group_ids : List String) (file : File) :
    Bool :=
  let shared_chat_ids := get_shared_chat_ids_by_file_id db file.id
  if access_type = "read" ∧ shared_chat_ids ≠ [] then
    !(get_accessible_resource_ids db.toDatabase user_id "shared_chat" shared_chat_ids "read"
      (some user_group_ids)).isEmpty
  else false

def reachesFile (access_type user_id : String) (user_group_ids : List String) (file : File) :
    Bool :=
  (get_knowledges_by_file_id db file.id).any (fun knowledge =>
      mayUse db access_type user_id user_group_ids knowledge &&
        confers access_type knowledge.user_id file) ||
    collectionAllows db access_type user_id user_group_ids file ||
    (decide (access_type = "read") &&
      !(get_channels_by_file_id_and_user_id db file.id user_id).isEmpty) ||
    sharedChatAllows db access_type user_id user_group_ids file ||
    (get_models_by_user_id db user_id access_type user_group_ids).any (fun model =>
      attaches file model && confers access_type model.user_id file)

def has_access_to_file (file_id access_type user_id : String)
    (user_group_ids : Option (List String)) : Bool :=
  match get_file_by_id db file_id with
  | none => false
  | some file =>
    if file.user_id = user_id then true
    else reachesFile db access_type user_id (groupIds db.toDatabase user_id user_group_ids) file

end Queries

section Write

variable {db : FileDatabase}

theorem any_find?_of_unique {α : Type} {rows : List α} {id : α → String}
    (unique : (rows.map id).Nodup) (key : Json) (test : α → Bool) :
    (rows.find? (fun row => decide (Json.str (id row) = key))).any test = true ↔
      ∃ row ∈ rows, Json.str (id row) = key ∧ test row = true := by
  induction rows with
  | nil => simp
  | cons row rest ih =>
    rw [List.map_cons, List.nodup_cons] at unique
    rw [List.find?_cons]
    by_cases same : Json.str (id row) = key
    · have alone : ∀ other ∈ rest, Json.str (id other) ≠ key := by
        intro other member equal
        refine unique.1 (List.mem_map.mpr ⟨other, member, ?_⟩)
        exact Json.str.inj (equal.trans same.symm)
      simp only [same, decide_true, Option.any_some, List.mem_cons, exists_eq_or_imp, true_and]
      constructor
      · exact Or.inl
      · rintro (here | ⟨other, member, equal, _⟩)
        · exact here
        · exact absurd equal (alone other member)
    · simp only [same, decide_false, ih unique.2, List.mem_cons, exists_eq_or_imp, false_and,
        false_or]

/-- The knowledge base contains the file: by a link, or as its collection. -/
def Contains (db : FileDatabase) (file : File) (knowledge : Knowledge) : Prop :=
  (∃ link ∈ db.knowledge_file, link.knowledge_id = knowledge.id ∧ link.file_id = file.id) ∨
    ∃ fields, file.file_meta = some fields ∧
      getField fields "collection_name" = .str knowledge.id ∧ knowledge.id ≠ ""

/-- The user owns an object or holds a grant on it. -/
def Holds (db : FileDatabase) (user_id : String) (user_group_ids : List String)
    (resource_type permission id owner : String) : Prop :=
  owner = user_id ∨ Allowed db.toDatabase user_id user_group_ids resource_type id permission

theorem mayUse_iff (access_type user_id : String) (user_group_ids : List String)
    (knowledge : Knowledge) :
    mayUse db access_type user_id user_group_ids knowledge = true ↔
      Holds db user_id user_group_ids "knowledge" access_type knowledge.id knowledge.user_id := by
  rw [mayUse, Bool.or_eq_true, decide_eq_true_eq, has_access_iff]
  rfl

theorem mem_get_knowledges_by_file_id (file_id : String) (knowledge : Knowledge) :
    knowledge ∈ get_knowledges_by_file_id db file_id ↔ knowledge ∈ db.knowledge ∧
      ∃ link ∈ db.knowledge_file, link.knowledge_id = knowledge.id ∧ link.file_id = file_id := by
  simp only [get_knowledges_by_file_id, List.mem_flatMap, List.mem_map, List.mem_filter,
    decide_eq_true_eq]
  constructor
  · rintro ⟨row, stored, link, ⟨linked, same⟩, rfl⟩
    exact ⟨stored, link, linked, same⟩
  · rintro ⟨stored, link, linked, same⟩
    exact ⟨knowledge, stored, link, ⟨linked, same⟩, rfl⟩

theorem collectionAllows_iff (access_type user_id : String) (user_group_ids : List String)
    (file : File) :
    collectionAllows db access_type user_id user_group_ids file = true ↔
      ∃ knowledge ∈ db.knowledge, (∃ fields, file.file_meta = some fields ∧
          getField fields "collection_name" = .str knowledge.id ∧ knowledge.id ≠ "") ∧
        confers access_type knowledge.user_id file = true ∧
          mayUse db access_type user_id user_group_ids knowledge = true := by
  unfold collectionAllows
  cases file.file_meta with
  | none => simp
  | some fields =>
    simp only [Option.map_some, Option.getD_some, get_knowledge_by_id, Option.some.injEq,
      exists_eq_left']
    split
    · rename_i full
      rw [any_find?_of_unique db.knowledge_unique]
      refine exists_congr (fun knowledge => and_congr_right (fun _ => ?_))
      rw [Bool.and_eq_true]
      constructor
      · rintro ⟨same, allowed⟩
        rw [← same] at full
        exact ⟨⟨same.symm, by simpa using full⟩, allowed⟩
      · rintro ⟨⟨same, _⟩, allowed⟩
        exact ⟨same.symm, allowed⟩
    · rename_i empty
      constructor
      · exact nofun
      · rintro ⟨knowledge, _, ⟨same, full⟩, _⟩
        rw [same] at empty
        exact absurd (by simpa using full) empty

theorem mem_get_models_by_user_id (user_id permission : String) (user_group_ids : List String)
    (model : Model) :
    model ∈ get_models_by_user_id db user_id permission user_group_ids ↔
      model ∈ db.model ∧ model.base_model_id.isSome = true ∧
        Holds db user_id user_group_ids "model" permission model.id model.user_id := by
  unfold get_models_by_user_id get_models
  rw [List.mem_filter, List.mem_filter, decide_eq_true_iff, mem_get_accessible_resource_ids_iff,
    and_assoc]
  refine and_congr_right (fun stored => and_congr_right (fun based => ?_))
  unfold Holds
  constructor
  · rintro (owner | ⟨_, allowed⟩)
    · exact Or.inl owner
    · exact Or.inr allowed
  · intro held
    by_cases owner : model.user_id = user_id
    · exact Or.inl owner
    · refine Or.inr ⟨List.mem_map.mpr ⟨model, ?_, rfl⟩, held.resolve_left owner⟩
      simp [stored, based, owner]

/-- A knowledge base of the owner of the file lets the user write it. -/
def KnowledgeConfers (db : FileDatabase) (user_id : String) (user_group_ids : List String)
    (file : File) : Prop :=
  ∃ knowledge ∈ db.knowledge, Contains db file knowledge ∧ knowledge.user_id = file.user_id ∧
    Holds db user_id user_group_ids "knowledge" "write" knowledge.id knowledge.user_id

/-- A workspace model of the owner of the file lets the user write it. -/
def ModelConfers (db : FileDatabase) (user_id : String) (user_group_ids : List String)
    (file : File) : Prop :=
  ∃ model ∈ db.model, model.base_model_id.isSome = true ∧ attaches file model = true ∧
    model.user_id = file.user_id ∧
      Holds db user_id user_group_ids "model" "write" model.id model.user_id

theorem confers_write (owner : String) (file : File) :
    confers "write" owner file = true ↔ owner = file.user_id := by
  simp [confers]

theorem reachesFile_write_iff (user_id : String) (user_group_ids : List String) (file : File) :
    reachesFile db "write" user_id user_group_ids file = true ↔
      KnowledgeConfers db user_id user_group_ids file ∨
        ModelConfers db user_id user_group_ids file := by
  have channels : (decide ("write" = "read") &&
      !(get_channels_by_file_id_and_user_id db file.id user_id).isEmpty) = false := rfl
  have chats : sharedChatAllows db "write" user_id user_group_ids file = false := by
    simp [sharedChatAllows]
  have linked : (get_knowledges_by_file_id db file.id).any (fun knowledge =>
      mayUse db "write" user_id user_group_ids knowledge &&
        confers "write" knowledge.user_id file) = true ∨
      collectionAllows db "write" user_id user_group_ids file = true ↔
        KnowledgeConfers db user_id user_group_ids file := by
    simp only [List.any_eq_true, Bool.and_eq_true, mem_get_knowledges_by_file_id, mayUse_iff,
      confers_write, collectionAllows_iff]
    constructor
    · rintro (⟨knowledge, ⟨stored, link⟩, held, same⟩ | ⟨knowledge, stored, named, same, held⟩)
      · exact ⟨knowledge, stored, Or.inl link, same, held⟩
      · exact ⟨knowledge, stored, Or.inr named, same, held⟩
    · rintro ⟨knowledge, stored, link | named, same, held⟩
      · exact Or.inl ⟨knowledge, ⟨stored, link⟩, held, same⟩
      · exact Or.inr ⟨knowledge, stored, named, same, held⟩
  have attached : (get_models_by_user_id db user_id "write" user_group_ids).any (fun model =>
      attaches file model && confers "write" model.user_id file) = true ↔
        ModelConfers db user_id user_group_ids file := by
    simp only [List.any_eq_true, Bool.and_eq_true, mem_get_models_by_user_id, confers_write]
    constructor
    · rintro ⟨model, ⟨stored, based, held⟩, attached, same⟩
      exact ⟨model, stored, based, attached, same, held⟩
    · rintro ⟨model, stored, based, attached, same, held⟩
      exact ⟨model, ⟨stored, based, held⟩, attached, same⟩
  rw [reachesFile, channels, chats, Bool.or_false, Bool.or_false, Bool.or_eq_true,
    Bool.or_eq_true, linked, attached]

/-- Two states agree on what the owner of the file has: the files, the groups, and the owner's
knowledge bases and models with their links and grants. -/
structure AgreeOn (owner : String) (first second : FileDatabase) : Prop where
  file : first.file = second.file
  group : first.group = second.group
  group_member : first.group_member = second.group_member
  knowledge : ∀ row : Knowledge, row.user_id = owner →
    (row ∈ first.knowledge ↔ row ∈ second.knowledge)
  knowledge_file : ∀ row ∈ first.knowledge, row.user_id = owner → ∀ link : KnowledgeFile,
    link.knowledge_id = row.id → (link ∈ first.knowledge_file ↔ link ∈ second.knowledge_file)
  model : ∀ row : Model, row.user_id = owner → (row ∈ first.model ↔ row ∈ second.model)
  knowledge_grant : ∀ row ∈ first.knowledge, row.user_id = owner → ∀ grant : AccessGrant,
    grant.resource_type = "knowledge" → grant.resource_id = row.id →
      (grant ∈ first.access_grant ↔ grant ∈ second.access_grant)
  model_grant : ∀ row ∈ first.model, row.user_id = owner → ∀ grant : AccessGrant,
    grant.resource_type = "model" → grant.resource_id = row.id →
      (grant ∈ first.access_grant ↔ grant ∈ second.access_grant)

theorem AgreeOn.symm {owner : String} {first second : FileDatabase}
    (agree : AgreeOn owner first second) : AgreeOn owner second first where
  file := agree.file.symm
  group := agree.group.symm
  group_member := agree.group_member.symm
  knowledge row owned := (agree.knowledge row owned).symm
  knowledge_file row stored owned link same :=
    (agree.knowledge_file row ((agree.knowledge row owned).mpr stored) owned link same).symm
  model row owned := (agree.model row owned).symm
  knowledge_grant row stored owned grant type same :=
    (agree.knowledge_grant row ((agree.knowledge row owned).mpr stored) owned grant type same).symm
  model_grant row stored owned grant type same :=
    (agree.model_grant row ((agree.model row owned).mpr stored) owned grant type same).symm

/-- Others than the owner add knowledge bases and models, with links and grants for what is new,
and channels and chats at will. -/
structure Adds (owner : String) (first second : FileDatabase) : Prop where
  file : first.file = second.file
  group : first.group = second.group
  group_member : first.group_member = second.group_member
  knowledge : ∃ added, second.knowledge = first.knowledge ++ added ∧
    ∀ row ∈ added, row.user_id ≠ owner
  knowledge_file : ∃ added, second.knowledge_file = first.knowledge_file ++ added ∧
    ∀ link ∈ added, ∀ row ∈ first.knowledge, link.knowledge_id ≠ row.id
  model : ∃ added, second.model = first.model ++ added ∧ ∀ row ∈ added, row.user_id ≠ owner
  access_grant : ∃ added, second.access_grant = first.access_grant ++ added ∧
    ∀ grant ∈ added,
      (∀ row ∈ first.knowledge, ¬ (grant.resource_type = "knowledge" ∧ grant.resource_id = row.id)) ∧
      ∀ row ∈ first.model, ¬ (grant.resource_type = "model" ∧ grant.resource_id = row.id)

theorem mem_append_of_not {α : Type} {rows added : List α} {row : α} (outside : row ∉ added) :
    row ∈ rows ↔ row ∈ rows ++ added := by
  simp [outside]

theorem Adds.agreeOn {owner : String} {first second : FileDatabase}
    (adds : Adds owner first second) : AgreeOn owner first second := by
  obtain ⟨knowledge, knowledge_eq, others⟩ := adds.knowledge
  obtain ⟨links, links_eq, fresh⟩ := adds.knowledge_file
  obtain ⟨models, models_eq, owners⟩ := adds.model
  obtain ⟨grants, grants_eq, apart⟩ := adds.access_grant
  refine ⟨adds.file, adds.group, adds.group_member, ?_, ?_, ?_, ?_, ?_⟩
  · intro row owned
    rw [knowledge_eq]
    exact mem_append_of_not (fun member => others row member owned)
  · intro row stored _ link same
    rw [links_eq]
    exact mem_append_of_not (fun member => fresh link member row stored same)
  · intro row owned
    rw [models_eq]
    exact mem_append_of_not (fun member => owners row member owned)
  · intro row stored _ grant type same
    rw [grants_eq]
    exact mem_append_of_not (fun member => (apart grant member).1 row stored ⟨type, same⟩)
  · intro row stored _ grant type same
    rw [grants_eq]
    exact mem_append_of_not (fun member => (apart grant member).2 row stored ⟨type, same⟩)

theorem Holds.transfer {first second : FileDatabase} {user_id : String}
    {user_group_ids : List String} {resource_type permission id owner : String}
    (held : Holds first user_id user_group_ids resource_type permission id owner)
    (grants : ∀ grant : AccessGrant, grant.resource_type = resource_type →
      grant.resource_id = id → (grant ∈ first.access_grant ↔ grant ∈ second.access_grant)) :
    Holds second user_id user_group_ids resource_type permission id owner := by
  rcases held with owns | ⟨grant, stored, on, admits⟩
  · exact Or.inl owns
  · exact Or.inr ⟨grant, (grants grant on.1 on.2.1).mp stored, on, admits⟩

theorem confers_transfer {first second : FileDatabase} {user_id : String}
    {user_group_ids : List String} {file : File} (agree : AgreeOn file.user_id first second)
    (reached : KnowledgeConfers first user_id user_group_ids file ∨
      ModelConfers first user_id user_group_ids file) :
    KnowledgeConfers second user_id user_group_ids file ∨
      ModelConfers second user_id user_group_ids file := by
  rcases reached with ⟨knowledge, stored, contains, owned, held⟩ |
    ⟨model, stored, based, attached, owned, held⟩
  · refine Or.inl ⟨knowledge, (agree.knowledge knowledge owned).mp stored, ?_, owned,
      held.transfer (agree.knowledge_grant knowledge stored owned)⟩
    rcases contains with ⟨link, linked, same, file_id⟩ | named
    · exact Or.inl ⟨link, (agree.knowledge_file knowledge stored owned link same).mp linked, same,
        file_id⟩
    · exact Or.inr named
  · exact Or.inr ⟨model, (agree.model model owned).mp stored, based, attached, owned,
      held.transfer (agree.model_grant model stored owned)⟩

theorem groupIds_congr {first second : Database} (group : first.group = second.group)
    (group_member : first.group_member = second.group_member) (user_id : String)
    (user_group_ids : Option (List String)) :
    groupIds first user_id user_group_ids = groupIds second user_id user_group_ids := by
  rw [groupIds, groupIds, get_groups_by_member_id, get_groups_by_member_id, group, group_member]

/-- A user who does not own a file writes it only through an object of its owner, and what
anyone else has, adds or takes away does not change the decision. -/
theorem write_through_owner (db : FileDatabase) (user_id : String)
    (user_group_ids : Option (List String)) (file : File)
    (found : get_file_by_id db file.id = some file) (other : file.user_id ≠ user_id) :
    (has_access_to_file db file.id "write" user_id user_group_ids = true →
      KnowledgeConfers db user_id (groupIds db.toDatabase user_id user_group_ids) file ∨
        ModelConfers db user_id (groupIds db.toDatabase user_id user_group_ids) file) ∧
    ∀ changed : FileDatabase, AgreeOn file.user_id db changed →
      has_access_to_file changed file.id "write" user_id user_group_ids =
        has_access_to_file db file.id "write" user_id user_group_ids := by
  have decision : ∀ state : FileDatabase, get_file_by_id state file.id = some file →
      has_access_to_file state file.id "write" user_id user_group_ids =
        reachesFile state "write" user_id (groupIds state.toDatabase user_id user_group_ids)
          file := by
    intro state here
    rw [has_access_to_file, here]
    exact if_neg other
  refine ⟨?_, ?_⟩
  · rw [decision db found, reachesFile_write_iff]
    exact id
  · intro changed agree
    have kept : get_file_by_id changed file.id = some file := by
      rw [get_file_by_id, ← agree.file]
      exact found
    rw [decision db found, decision changed kept, Bool.eq_iff_iff, reachesFile_write_iff,
      reachesFile_write_iff, groupIds_congr agree.group agree.group_member]
    exact ⟨confers_transfer agree.symm, confers_transfer agree⟩

end Write

def reportFile : FileDatabase where
  access_grant := []
  group := []
  group_member := []
  user := []
  file := [⟨"report", "ann", none⟩]
  knowledge := []
  knowledge_file := []
  model := []
  channel := []
  channel_file := []
  channel_member := []
  chat := []
  chat_file := []
  knowledge_unique := by decide
  model_unique := by decide

def launderedFile : FileDatabase :=
  { reportFile with
    access_grant := [⟨"grant", "knowledge", "mine", "user", "*", "write", 0⟩]
    knowledge := [⟨"mine", "bob"⟩]
    knowledge_file := [⟨"mine", "report"⟩]
    knowledge_unique := by decide }

theorem launderedFile_adds : Adds "ann" reportFile launderedFile where
  file := rfl
  group := rfl
  group_member := rfl
  knowledge := ⟨[⟨"mine", "bob"⟩], rfl, by decide⟩
  knowledge_file := ⟨[⟨"mine", "report"⟩], rfl, nofun⟩
  model := ⟨[], rfl, nofun⟩
  access_grant := ⟨_, rfl, fun _ _ => ⟨nofun, nofun⟩⟩

theorem launderedFile_write :
    has_access_to_file launderedFile "report" "write" "bob" none =
      has_access_to_file reportFile "report" "write" "bob" none :=
  (write_through_owner reportFile "bob" none ⟨"report", "ann", none⟩ rfl (by decide)).2
    launderedFile launderedFile_adds.agreeOn

end OpenWebui.AccessControl
