import OpenWebui.AccessGrants.Sharing
import OpenWebui.Base.Dict
import OpenWebui.Base.ParentLinks
import OpenWebui.Base.Runs
import OpenWebui.Utils.Routes

/-! The prompts, the entries of their histories, and the operations on both tables. -/

namespace OpenWebui.Prompts

open AccessGrants (AccessGrant Payload)

abbrev Tags := List (Option String)

structure Prompt where
  user_id : String
  command : String
  name : String
  content : String
  data : Option Fields
  prompt_meta : Option Fields
  tags : Tags
  version_id : Option String

/-- A snapshot; each writer of one gives it all its fields. -/
structure Snapshot where
  name : String
  content : String
  command : String
  data : Fields
  prompt_meta : Fields
  tags : Tags
  access_grants : List AccessGrant

structure PromptHistory where
  prompt_id : String
  parent_id : Option String
  snapshot : Snapshot
  user_id : String
  commit_message : Option String
  created_at : Int

abbrev Histories := Dict String PromptHistory

structure Tables where
  access : AccessGrants.Database
  prompt : Dict String Prompt
  history : Histories

structure PromptForm where
  command : String
  name : String
  content : String
  data : Option Fields
  prompt_meta : Option Fields
  tags : Option Tags
  access_grants : Option (List Payload)
  commit_message : Option String
  is_production : Option Bool

def truthy (fields : Option Fields) : Option Fields := fields.filter (fun fields => !fields.isEmpty)

def get_prompt_by_command (tables : Tables) (command : String) : Option (String × Prompt) :=
  tables.prompt.entries.find? (fun row => decide (row.2.command = command))

def get_latest_history_entry (history : Histories) (prompt_id : String) (tie : Nat) :
    Option (String × PromptHistory) :=
  let entries := history.entries.filter (fun entry => decide (entry.2.prompt_id = prompt_id))
  let latest := entries.filter (fun entry =>
    entries.all (fun other => decide (other.2.created_at ≤ entry.2.created_at)))
  latest[tie % latest.length]?

/-- What an operation is given besides its arguments: the time, and generated ids. -/
structure Fresh where
  now : Int
  uuid : String
  history_uuid : String
  grant_uuid : Nat → String
  tie : Nat

def grantsOf (access : AccessGrants.Database) (prompt_id : String) : List AccessGrant :=
  AccessGrants.get_grants_by_resource access "prompt" prompt_id

section Operations

variable (fresh : Fresh)

def set_access_grants (access : AccessGrants.Database) (prompt_id : String)
    (access_grants : List Payload) : AccessGrants.Database :=
  AccessGrants.set_access_grants fresh.grant_uuid fresh.now access "prompt" prompt_id access_grants

def insert_new_prompt (tables : Tables) (user_id : String) (form : PromptForm) : Tables :=
  let access := set_access_grants fresh tables.access fresh.uuid (form.access_grants.getD [])
  let snapshot : Snapshot :=
    { name := form.name
      content := form.content
      command := form.command
      data := form.data.getD []
      prompt_meta := form.prompt_meta.getD []
      tags := form.tags.getD []
      access_grants := grantsOf access fresh.uuid }
  let message := (form.commit_message.filter (fun text => decide (text ≠ ""))).getD "Initial version"
  { access := access
    prompt := tables.prompt.set fresh.uuid
      { user_id := user_id
        command := form.command
        name := form.name
        content := form.content
        data := some (form.data.getD [])
        prompt_meta := some (form.prompt_meta.getD [])
        tags := form.tags.getD []
        version_id := some fresh.history_uuid }
    history := tables.history.set fresh.history_uuid
      { prompt_id := fresh.uuid
        parent_id := none
        snapshot := snapshot
        user_id := user_id
        commit_message := some message
        created_at := fresh.now } }

def content_changed (prompt : Prompt) (form : PromptForm) : Bool :=
  decide (prompt.name ≠ form.name) || decide (prompt.command ≠ form.command) ||
    decide (prompt.content ≠ form.content) || form.access_grants.isSome ||
    form.tags.any (fun tags => decide (prompt.tags ≠ tags))

def updatedPrompt (prompt : Prompt) (form : PromptForm) : Prompt :=
  { prompt with
    name := form.name
    command := form.command
    content := form.content
    data := (truthy form.data).or prompt.data
    prompt_meta := (truthy form.prompt_meta).or prompt.prompt_meta
    tags := form.tags.getD prompt.tags }

def updateSnapshot (prompt : Prompt) (form : PromptForm) (access_grants : List AccessGrant) :
    Snapshot where
  name := form.name
  content := form.content
  command := (updatedPrompt prompt form).command
  data := form.data.getD []
  prompt_meta := form.prompt_meta.getD []
  tags := (updatedPrompt prompt form).tags
  access_grants := access_grants

def publishes (prompt : Prompt) (form : PromptForm) : Bool :=
  content_changed prompt form && form.is_production.getD false

def updatedTables (tables : Tables) (prompt_id : String) (prompt : Prompt) (form : PromptForm)
    (user_id : String) : Tables :=
  let latest_history := get_latest_history_entry tables.history prompt_id fresh.tie
  let access := (form.access_grants.map (set_access_grants fresh tables.access prompt_id)).getD
    tables.access
  let updated := updatedPrompt prompt form
  let pinned : Prompt :=
    if publishes prompt form then { updated with version_id := some fresh.history_uuid }
    else updated
  let entry : PromptHistory :=
    { prompt_id := prompt_id
      parent_id := latest_history.map Prod.fst
      snapshot := updateSnapshot prompt form (grantsOf access prompt_id)
      user_id := user_id
      commit_message := form.commit_message
      created_at := fresh.now }
  { access := access
    prompt := tables.prompt.set prompt_id pinned
    history :=
      if content_changed prompt form then tables.history.set fresh.history_uuid entry
      else tables.history }

def update_prompt_by_id (tables : Tables) (prompt_id : String) (form : PromptForm)
    (user_id : String) : Option Tables :=
  (tables.prompt.get? prompt_id).map (fun prompt =>
    updatedTables fresh tables prompt_id prompt form user_id)

end Operations

def update_prompt_metadata (tables : Tables) (prompt_id name command : String)
    (tags : Option Tags) : Option Tables :=
  (tables.prompt.get? prompt_id).map (fun prompt =>
    { tables with
      prompt := tables.prompt.set prompt_id
        { prompt with name := name, command := command, tags := tags.getD prompt.tags } })

def restored (prompt : Prompt) (snapshot : Snapshot) (version_id : String) : Prompt :=
  { prompt with
    name := snapshot.name
    content := snapshot.content
    data := some snapshot.data
    prompt_meta := some snapshot.prompt_meta
    tags := snapshot.tags
    version_id := some version_id }

def update_prompt_version (tables : Tables) (prompt_id version_id : String) : Option Tables :=
  match tables.prompt.get? prompt_id, tables.history.get? version_id with
  | some prompt, some entry =>
    if entry.prompt_id = prompt_id then
      some { tables with
        prompt := tables.prompt.set prompt_id (restored prompt entry.snapshot version_id) }
    else none
  | _, _ => none

def reparented (history_id : String) (entry child : PromptHistory) : PromptHistory :=
  if child.parent_id = some history_id then { child with parent_id := entry.parent_id } else child

def delete_history_entry (history : Histories) (history_id prompt_id : String) :
    Option Histories :=
  ((history.get? history_id).filter (fun entry => decide (entry.prompt_id = prompt_id))).map
    (fun entry => (history.mapValue (fun _ => reparented history_id entry)).erase history_id)

open AccessGrants (has_access)

inductive Request where
  | create_new_prompt (form : PromptForm)
  | update_prompt_by_id (prompt_id : String) (form : PromptForm)
  | update_prompt_metadata (prompt_id name command : String) (tags : Option Tags)
  | set_prompt_version (prompt_id version_id : String)
  | delete_prompt_history_entry (prompt_id history_id : String)

structure Event where
  caller : Caller
  fresh : Fresh
  request : Request

def mayCreate (caller : Caller) : Except PyError Bool :=
  if caller.role = "admin" then .ok true
  else do
    if ← caller.has_permission "workspace.prompts" then .ok true
    else caller.has_permission "workspace.prompts_import"

def filterGrants (caller : Caller) (form : PromptForm) : Except PyError PromptForm :=
  (caller.allowedGrants "sharing.public_prompts" form.access_grants).map (fun allowed =>
    { form with access_grants := allowed })

def writable (tables : Tables) (caller : Caller) (prompt_id : String) :
    Except HTTPException Prompt :=
  match tables.prompt.get? prompt_id with
  | none => .error ⟨404, ERROR_MESSAGES.NOT_FOUND⟩
  | some prompt =>
    if prompt.user_id ≠ caller.id ∧
        has_access tables.access caller.id "prompt" prompt_id "write" none = false ∧
        caller.role ≠ "admin" then
      .error ⟨401, ERROR_MESSAGES.ACCESS_PROHIBITED⟩
    else .ok prompt

def commandFree (tables : Tables) (prompt_id : String) (prompt : Prompt) (command : String) :
    Except HTTPException Unit :=
  if command ≠ prompt.command ∧
      (get_prompt_by_command tables command).any (fun row => decide (row.1 ≠ prompt_id)) then
    .error ⟨400, ERROR_MESSAGES.COMMAND_TAKEN⟩
  else .ok ()

def checkUpdate (tables : Tables) (caller : Caller) (prompt_id : String) (form : PromptForm) :
    Except HTTPException (Prompt × PromptForm) := do
  let prompt ← writable tables caller prompt_id
  let _ ← commandFree tables prompt_id prompt form.command
  let form ← raised (filterGrants caller form)
  .ok (prompt, form)

def orBadRequest (result : Option Tables) : Except HTTPException Tables :=
  match result with
  | some tables => .ok tables
  | none => .error ⟨400, ERROR_MESSAGES.DEFAULT⟩

def create_new_prompt (tables : Tables) (caller : Caller) (fresh : Fresh) (form : PromptForm) :
    Except HTTPException Tables := do
  let allowed ← raised (mayCreate caller)
  if allowed then
    let form ← raised (filterGrants caller form)
    if (get_prompt_by_command tables form.command).isSome then .error ⟨400, ERROR_MESSAGES.COMMAND_TAKEN⟩
    else .ok (insert_new_prompt fresh tables caller.id form)
  else .error ⟨401, ERROR_MESSAGES.UNAUTHORIZED⟩

def updatePrompt (tables : Tables) (caller : Caller) (fresh : Fresh) (prompt_id : String)
    (form : PromptForm) : Except HTTPException Tables := do
  let checked ← checkUpdate tables caller prompt_id form
  orBadRequest (update_prompt_by_id fresh tables prompt_id checked.2 caller.id)

def updateMetadata (tables : Tables) (caller : Caller) (prompt_id name command : String)
    (tags : Option Tags) : Except HTTPException Tables := do
  let prompt ← writable tables caller prompt_id
  let _ ← commandFree tables prompt_id prompt command
  orBadRequest (update_prompt_metadata tables prompt_id name command tags)

def set_prompt_version (tables : Tables) (caller : Caller) (prompt_id version_id : String) :
    Except HTTPException Tables := do
  let _ ← writable tables caller prompt_id
  orBadRequest (update_prompt_version tables prompt_id version_id)

def delete_prompt_history_entry (tables : Tables) (caller : Caller)
    (prompt_id history_id : String) : Except HTTPException Tables := do
  let prompt ← writable tables caller prompt_id
  if prompt.version_id = some history_id then
    .error ⟨400, "Cannot delete the active production version"⟩
  else
    match delete_history_entry tables.history history_id prompt_id with
    | none => .error ⟨404, ERROR_MESSAGES.NOT_FOUND⟩
    | some history => .ok { tables with history := history }

def handle (tables : Tables) (event : Event) : Except HTTPException Tables :=
  match event.request with
  | .create_new_prompt form => create_new_prompt tables event.caller event.fresh form
  | .update_prompt_by_id prompt_id form =>
    updatePrompt tables event.caller event.fresh prompt_id form
  | .update_prompt_metadata prompt_id name command tags =>
    updateMetadata tables event.caller prompt_id name command tags
  | .set_prompt_version prompt_id version_id =>
    set_prompt_version tables event.caller prompt_id version_id
  | .delete_prompt_history_entry prompt_id history_id =>
    delete_prompt_history_entry tables event.caller prompt_id history_id

def unused (tables : Tables) (fresh : Fresh) : Bool :=
  decide (fresh.uuid ∉ tables.prompt.keys) && decide (fresh.history_uuid ∉ tables.history.keys)

end OpenWebui.Prompts

namespace OpenWebui.Prompts

/-- The tables, and the prompts whose metadata were updated after their version was set. -/
structure Observed where
  tables : Tables
  renamed : List String

/-- The prompt shows the snapshot; its name and tags only count while it is not renamed. -/
structure Shows (renamed : Prop) (prompt : Prompt) (snapshot : Snapshot) : Prop where
  content : prompt.content = snapshot.content
  data : prompt.data = some snapshot.data
  prompt_meta : prompt.prompt_meta = some snapshot.prompt_meta
  name : ¬ renamed → prompt.name = snapshot.name
  tags : ¬ renamed → prompt.tags = snapshot.tags

/-- The version of a prompt, if it has one, is an entry of the prompt that the prompt shows. -/
def PinnedAt (history : Histories) (renamed : List String) (id : String) (prompt : Prompt) : Prop :=
  ∀ version_id, prompt.version_id = some version_id →
    ∃ entry, history.get? version_id = some entry ∧ entry.prompt_id = id ∧
      Shows (id ∈ renamed) prompt entry.snapshot

def Pinned (tables : Tables) (renamed : List String) : Prop :=
  ∀ id prompt, tables.prompt.get? id = some prompt → PinnedAt tables.history renamed id prompt

def links (history : Histories) : ParentLinks String where
  nodes := history.keys
  parent id := (history.get? id).bind PromptHistory.parent_id
  children _ := []

/-- Parents are entries of the same prompt, without a cycle. -/
structure Linked (history : Histories) : Prop where
  within : ∀ child entry parent, history.get? child = some entry →
    entry.parent_id = some parent →
      ∃ above, history.get? parent = some above ∧ above.prompt_id = entry.prompt_id
  acyclic : (links history).Acyclic

/-- The prompt is shown as before. -/
structure SameShown (renamed : Prop) (before after : Prompt) : Prop where
  version : after.version_id = before.version_id
  command : after.command = before.command
  content : after.content = before.content
  data : after.data = before.data
  prompt_meta : after.prompt_meta = before.prompt_meta
  name : ¬ renamed → after.name = before.name
  tags : ¬ renamed → after.tags = before.tags

structure Consistent (observed : Observed) : Prop where
  pinned : Pinned observed.tables observed.renamed
  linked : Linked observed.tables.history
  stable : ∀ id prompt version_id, observed.tables.prompt.get? id = some prompt →
    prompt.version_id = some version_id →
      ∃ after later, update_prompt_version observed.tables id version_id = some after ∧
        after.history = observed.tables.history ∧
        (∀ other, other ≠ id → after.prompt.get? other = observed.tables.prompt.get? other) ∧
        after.prompt.get? id = some later ∧ SameShown (id ∈ observed.renamed) prompt later

section Links

variable {history : Histories}

theorem edge_iff {child parent : String} :
    (links history).Edge child parent ↔
      ∃ entry, history.get? child = some entry ∧ entry.parent_id = some parent := by
  unfold ParentLinks.Edge links
  rw [Option.bind_eq_some_iff]
  constructor
  · exact And.right
  · rintro ⟨entry, found, named⟩
    exact ⟨Dict.mem_keys_of_get? found, entry, found, named⟩

theorem Linked.add (linked : Linked history) {id : String} {entry : PromptHistory}
    (new : id ∉ history.keys)
    (parent : ∀ parent, entry.parent_id = some parent →
      ∃ above, history.get? parent = some above ∧ above.prompt_id = entry.prompt_id) :
    Linked (history.set id entry) := by
  have absent := Dict.get?_eq_none.mpr new
  have apart : ∀ other found, history.get? other = some found → id ≠ other := by
    rintro other found stored rfl
    rw [absent] at stored
    cases stored
  have kept : ∀ other found, history.get? other = some found →
      (history.set id entry).get? other = some found := by
    intro other found stored
    rw [Dict.get?_set, if_neg (apart other found stored)]
    exact stored
  refine ⟨?_, linked.acyclic.of_new id ?_ ?_⟩
  · intro child found above stored named
    rw [Dict.get?_set] at stored
    split at stored
    · obtain rfl := Option.some.inj stored
      obtain ⟨beyond, present, same⟩ := parent above named
      exact ⟨beyond, kept above beyond present, same⟩
    · obtain ⟨beyond, present, same⟩ := linked.within child found above stored named
      exact ⟨beyond, kept above beyond present, same⟩
  · intro child above edge different
    obtain ⟨found, stored, named⟩ := edge_iff.mp edge
    rw [Dict.get?_set, if_neg different.symm] at stored
    exact edge_iff.mpr ⟨found, stored, named⟩
  · intro child edge
    obtain ⟨found, stored, named⟩ := edge_iff.mp edge
    rw [Dict.get?_set] at stored
    have known : ∃ above, history.get? id = some above := by
      split at stored
      · obtain rfl := Option.some.inj stored
        obtain ⟨above, present, _⟩ := parent id named
        exact ⟨above, present⟩
      · obtain ⟨above, present, _⟩ := linked.within child found id stored named
        exact ⟨above, present⟩
    obtain ⟨above, present⟩ := known
    exact apart id above present rfl

theorem reparented_prompt (history_id : String) (entry child : PromptHistory) :
    (reparented history_id entry child).prompt_id = child.prompt_id := by
  unfold reparented
  split <;> rfl

theorem reparented_snapshot (history_id : String) (entry child : PromptHistory) :
    (reparented history_id entry child).snapshot = child.snapshot := by
  unfold reparented
  split <;> rfl

theorem delete_history_entry_ok {after : Histories} {history_id prompt_id : String}
    (done : delete_history_entry history history_id prompt_id = some after) :
    ∃ entry, history.get? history_id = some entry ∧ entry.prompt_id = prompt_id ∧
      ∀ id, after.get? id =
        if history_id = id then none else (history.get? id).map (reparented history_id entry) := by
  obtain ⟨entry, kept, rfl⟩ := Option.map_eq_some_iff.mp done
  obtain ⟨found, same⟩ := Option.filter_eq_some_iff.mp kept
  refine ⟨entry, found, of_decide_eq_true same, fun id => ?_⟩
  rw [Dict.get?_erase, Dict.get?_mapValue]

theorem Linked.delete (linked : Linked history) {after : Histories} {history_id prompt_id : String}
    (done : delete_history_entry history history_id prompt_id = some after) : Linked after := by
  obtain ⟨entry, found, _, stored⟩ := delete_history_entry_ok done
  have old : ∀ id later, after.get? id = some later → history_id ≠ id ∧
      ∃ before, history.get? id = some before ∧ later = reparented history_id entry before := by
    intro id later present
    rw [stored] at present
    split at present
    · cases present
    · rename_i apart
      obtain ⟨before, known, same⟩ := Option.map_eq_some_iff.mp present
      exact ⟨apart, before, known, same.symm⟩
  have kept : ∀ id before, history_id ≠ id → history.get? id = some before →
      after.get? id = some (reparented history_id entry before) := by
    intro id before apart known
    rw [stored, if_neg apart, known]
    rfl
  have up : ∀ parent, entry.parent_id = some parent → history_id ≠ parent := by
    rintro parent named rfl
    exact linked.acyclic history_id (.single (edge_iff.mpr ⟨entry, found, named⟩))
  refine ⟨?_, linked.acyclic.of_paths ?_⟩
  · intro child later parent present named
    obtain ⟨_, before, known, rfl⟩ := old child later present
    rw [reparented_prompt]
    unfold reparented at named
    split at named
    · rename_i below
      obtain ⟨middle, there, same⟩ := linked.within child before history_id known below
      obtain rfl := Option.some.inj (found.symm.trans there)
      obtain ⟨above, beyond, again⟩ := linked.within history_id entry parent found named
      exact ⟨_, kept parent above (up parent named) beyond,
        (reparented_prompt _ _ _).trans (again.trans same)⟩
    · rename_i beside
      obtain ⟨above, beyond, same⟩ := linked.within child before parent known named
      have apart : history_id ≠ parent := by
        rintro rfl
        exact beside named
      exact ⟨_, kept parent above apart beyond, (reparented_prompt _ _ _).trans same⟩
  · intro child parent edge
    obtain ⟨later, present, named⟩ := edge_iff.mp edge
    obtain ⟨_, before, known, rfl⟩ := old child later present
    unfold reparented at named
    split at named
    · rename_i below
      exact .head (edge_iff.mpr ⟨before, known, below⟩)
        (.single (edge_iff.mpr ⟨entry, found, named⟩))
    · exact .single (edge_iff.mpr ⟨before, known, named⟩)

theorem get_latest_history_entry_some {prompt_id id : String} {entry : PromptHistory} {tie : Nat}
    (latest : get_latest_history_entry history prompt_id tie = some (id, entry)) :
    history.get? id = some entry ∧ entry.prompt_id = prompt_id := by
  have member := List.mem_of_getElem? latest
  obtain ⟨listed, _⟩ := List.mem_filter.mp member
  obtain ⟨stored, same⟩ := List.mem_filter.mp listed
  exact ⟨Dict.mem_entries_iff.mp stored, of_decide_eq_true same⟩

end Links

end OpenWebui.Prompts
