import OpenWebui.Prompts.Versions

/-! What is served of a prompt is its version exactly when each update either publishes all that it
writes or changes nothing that is served. -/

namespace OpenWebui.Prompts

section Pinned

variable {tables : Tables} {history : Histories} {renamed later : List String} {id : String}
  {prompt : Prompt}

theorem PinnedAt.extend (pinned : PinnedAt tables.history renamed id prompt)
    (kept : ∀ version_id entry, prompt.version_id = some version_id →
      tables.history.get? version_id = some entry →
        ∃ after, history.get? version_id = some after ∧ after.prompt_id = entry.prompt_id ∧
          after.snapshot = entry.snapshot)
    (same : id ∈ later ↔ id ∈ renamed) : PinnedAt history later id prompt := by
  intro version_id named
  obtain ⟨entry, found, own, shows⟩ := pinned version_id named
  obtain ⟨after, present, prompt_id, snapshot⟩ := kept version_id entry named found
  refine ⟨after, present, prompt_id.trans own, ?_⟩
  rw [snapshot]
  exact ⟨shows.content, shows.data, shows.prompt_meta,
    fun still => shows.name (fun again => still (same.mpr again)),
    fun still => shows.tags (fun again => still (same.mpr again))⟩

theorem pinned_set_iff {access : AccessGrants.Database}
    (others : ∀ other row, other ≠ id → tables.prompt.get? other = some row →
      PinnedAt history later other row) :
    Pinned ⟨access, tables.prompt.set id prompt, history⟩ later ↔
      PinnedAt history later id prompt := by
  constructor
  · intro pinned
    exact pinned id prompt (by rw [Dict.get?_set, if_pos rfl])
  · intro here other row found
    rw [Dict.get?_set] at found
    split at found
    · rename_i same
      subst same
      obtain rfl := Option.some.inj found
      exact here
    · rename_i apart
      exact others other row (Ne.symm apart) found

theorem stable_of_pinned (pinned : Pinned tables renamed) {version_id : String}
    (found : tables.prompt.get? id = some prompt) (named : prompt.version_id = some version_id) :
    ∃ after later, update_prompt_version tables id version_id = some after ∧
      after.history = tables.history ∧
      (∀ other, other ≠ id → after.prompt.get? other = tables.prompt.get? other) ∧
      after.prompt.get? id = some later ∧ SameShown (id ∈ renamed) prompt later := by
  obtain ⟨entry, present, own, shows⟩ := pinned id prompt found version_id named
  refine ⟨{ tables with
    prompt := tables.prompt.set id (restored prompt entry.snapshot version_id) },
    restored prompt entry.snapshot version_id, ?_, rfl, ?_, ?_, ?_⟩
  · simp only [update_prompt_version, found, present]
    rw [if_pos own]
  · intro other apart
    rw [Dict.get?_set, if_neg apart.symm]
  · rw [Dict.get?_set, if_pos rfl]
  · exact ⟨named.symm, rfl, shows.content.symm, shows.data.symm, shows.prompt_meta.symm,
      fun still => (shows.name still).symm, fun still => (shows.tags still).symm⟩

theorem consistent_iff {observed : Observed} :
    Consistent observed ↔
      Pinned observed.tables observed.renamed ∧ Linked observed.tables.history := by
  constructor
  · intro consistent
    exact ⟨consistent.pinned, consistent.linked⟩
  · rintro ⟨pinned, linked⟩
    exact ⟨pinned, linked, fun id prompt version_id => stable_of_pinned pinned⟩

end Pinned

def noted (observed : Observed) (event : Event) : List String :=
  match event.request with
  | .create_new_prompt _ => observed.renamed.filter (fun id => decide (id ≠ event.fresh.uuid))
  | .update_prompt_by_id prompt_id form =>
    if (observed.tables.prompt.get? prompt_id).any (fun prompt => publishes prompt form) then
      observed.renamed.filter (fun id => decide (id ≠ prompt_id))
    else observed.renamed
  | .update_prompt_metadata prompt_id _ _ _ => prompt_id :: observed.renamed
  | .set_prompt_version prompt_id _ => observed.renamed.filter (fun id => decide (id ≠ prompt_id))
  | .delete_prompt_history_entry _ _ => observed.renamed

def step (observed : Observed) (event : Event) : Option Observed :=
  if unused observed.tables event.fresh then
    match handle observed.tables event with
    | .ok tables => some ⟨tables, noted observed event⟩
    | .error _ => some observed
  else none

/-- An update that publishes gives the data and meta, unless there are none; any other changes
nothing of what the version shows. -/
def KeepsVersion (renamed : Prop) (prompt : Prompt) (form : PromptForm) : Prop :=
  if publishes prompt form then
    (truthy form.data = none → prompt.data = some []) ∧
      (truthy form.prompt_meta = none → prompt.prompt_meta = some [])
  else prompt.version_id = none ∨
    (form.content = prompt.content ∧
      (∀ data, truthy form.data = some data → prompt.data = some data) ∧
      (∀ prompt_meta, truthy form.prompt_meta = some prompt_meta →
        prompt.prompt_meta = some prompt_meta) ∧
      (¬ renamed → form.name = prompt.name ∧ ∀ tags, form.tags = some tags → tags = prompt.tags))

/-- An update that passes the checks of its route keeps the version served. -/
def Published (observed : Observed) (event : Event) : Prop :=
  match event.request with
  | .update_prompt_by_id prompt_id form =>
    ∀ checked, checkUpdate observed.tables event.caller prompt_id form = .ok checked →
      KeepsVersion (prompt_id ∈ observed.renamed) checked.1 form
  | _ => True

section Requests

variable {tables after : Tables} {renamed : List String} {caller : Caller} {fresh : Fresh}

theorem writable_ok {prompt_id : String} {prompt : Prompt}
    (allowed : writable tables caller prompt_id = .ok prompt) :
    tables.prompt.get? prompt_id = some prompt := by
  unfold writable at allowed
  split at allowed
  · cases allowed
  · rename_i row found
    split at allowed
    · cases allowed
    · obtain rfl := Except.ok.inj allowed
      exact found

theorem orBadRequest_ok {result : Option Tables} (done : orBadRequest result = .ok after) :
    result = some after := by
  cases result with
  | none => cases done
  | some tables => exact congrArg some (Except.ok.inj done)

theorem mem_unrenamed {id other : String} (apart : other ≠ id) :
    other ∈ renamed.filter (fun id' => decide (id' ≠ id)) ↔ other ∈ renamed := by
  rw [List.mem_filter, decide_eq_true_eq]
  exact and_iff_left apart

theorem filterGrants_ok {form allowed : PromptForm} (done : filterGrants caller form = .ok allowed) :
    ∃ access_grants : Option (List AccessGrants.Payload),
      access_grants.isSome = form.access_grants.isSome ∧
        allowed = { form with access_grants := access_grants } := by
  obtain ⟨access_grants, kept, rfl⟩ := map_eq_ok.mp done
  exact ⟨access_grants, Caller.allowedGrants_isSome kept, rfl⟩

theorem publishes_filtered (prompt : Prompt) (form : PromptForm)
    {access_grants : Option (List AccessGrants.Payload)}
    (same : access_grants.isSome = form.access_grants.isSome) :
    publishes prompt { form with access_grants := access_grants } = publishes prompt form ∧
      content_changed prompt { form with access_grants := access_grants } =
        content_changed prompt form := by
  simp only [publishes, content_changed, same, and_self]

theorem get?_set_fresh {history : Histories} {id : String} (new : id ∉ history.keys)
    (entry : PromptHistory) {other : String} {found : PromptHistory}
    (stored : history.get? other = some found) :
    (history.set id entry).get? other = some found := by
  rw [Dict.get?_set, if_neg]
  · exact stored
  · rintro rfl
    exact new (Dict.mem_keys_of_get? stored)

theorem unused_iff : unused tables fresh = true ↔
    fresh.uuid ∉ tables.prompt.keys ∧ fresh.history_uuid ∉ tables.history.keys := by
  rw [unused, Bool.and_eq_true, decide_eq_true_eq, decide_eq_true_eq]

theorem consistent_insert (new : unused tables fresh = true) (user_id : String) (form : PromptForm)
    (pinned : Pinned tables renamed) (linked : Linked tables.history) :
    Pinned (insert_new_prompt fresh tables user_id form)
        (renamed.filter (fun id => decide (id ≠ fresh.uuid))) ∧
      Linked (insert_new_prompt fresh tables user_id form).history := by
  have absent := (unused_iff.mp new).2
  refine ⟨?_, linked.add absent ?_⟩
  · refine (pinned_set_iff ?_).mpr ?_
    · intro other row apart found
      refine (pinned other row found).extend ?_ (mem_unrenamed apart)
      intro version_id entry _ stored
      exact ⟨entry, get?_set_fresh absent _ stored, rfl, rfl⟩
    · intro version_id named
      obtain rfl := Option.some.inj named
      refine ⟨_, by rw [Dict.get?_set, if_pos rfl], rfl, ?_⟩
      exact ⟨rfl, rfl, rfl, fun _ => rfl, fun _ => rfl⟩
  · intro parent named
    cases named

theorem data_published_iff (given old : Option Fields) :
    (truthy given).or old = some (given.getD []) ↔ (truthy given = none → old = some []) := by
  cases given with
  | none => simp [truthy]
  | some fields =>
    cases fields with
    | nil => simp [truthy]
    | cons field rest => simp [truthy]

theorem data_kept_iff (given old : Option Fields) :
    (truthy given).or old = old ↔ ∀ fields, truthy given = some fields → old = some fields := by
  cases truthy given with
  | none => simp
  | some fields => simp [eq_comm]

theorem pinnedAt_updated_iff {history : Histories} {later : List String} {prompt : Prompt}
    {prompt_id version : String} {form : PromptForm} {entry : PromptHistory}
    (pinned : PinnedAt history renamed prompt_id prompt) (new : version ∉ history.keys)
    (own : entry.prompt_id = prompt_id)
    (snapshot : ∃ access_grants, entry.snapshot = updateSnapshot prompt form access_grants)
    (noted : later = if publishes prompt form then
      renamed.filter (fun id => decide (id ≠ prompt_id)) else renamed) :
    PinnedAt (if content_changed prompt form then history.set version entry else history) later
      prompt_id (if publishes prompt form then
        { updatedPrompt prompt form with version_id := some version }
      else updatedPrompt prompt form) ↔ KeepsVersion (prompt_id ∈ renamed) prompt form := by
  obtain ⟨access_grants, written⟩ := snapshot
  subst noted
  unfold KeepsVersion
  by_cases publishing : publishes prompt form = true
  · have changed : content_changed prompt form = true := (Bool.and_eq_true_iff.mp publishing).1
    rw [if_pos publishing, if_pos publishing, if_pos publishing, if_pos changed,
      ← data_published_iff, ← data_published_iff]
    constructor
    · intro after
      obtain ⟨found, stored, _, shows⟩ := after version rfl
      rw [Dict.get?_set, if_pos rfl] at stored
      obtain rfl := Option.some.inj stored
      rw [written] at shows
      exact ⟨shows.data, shows.prompt_meta⟩
    · rintro ⟨data, prompt_meta⟩ version_id named
      obtain rfl := Option.some.inj named
      refine ⟨entry, by rw [Dict.get?_set, if_pos rfl], own, ?_⟩
      rw [written]
      exact ⟨rfl, data, prompt_meta, fun _ => rfl, fun _ => rfl⟩
  · rw [if_neg publishing, if_neg publishing, if_neg publishing]
    have kept : ∀ version_id found, history.get? version_id = some found →
        (if content_changed prompt form then history.set version entry else history).get?
          version_id = some found := by
      intro version_id found stored
      split
      · exact get?_set_fresh new entry stored
      · exact stored
    rw [← data_kept_iff, ← data_kept_iff]
    cases named : prompt.version_id with
    | none =>
      refine iff_of_true ?_ (Or.inl rfl)
      intro version_id again
      rw [updatedPrompt, named] at again
      cases again
    | some version_id =>
      obtain ⟨found, stored, belongs, shows⟩ := pinned version_id named
      have tags : form.tags.getD prompt.tags = prompt.tags ↔
          ∀ tags, form.tags = some tags → tags = prompt.tags := by
        cases form.tags <;> simp
      constructor
      · intro after
        obtain ⟨again, present, _, later⟩ := after version_id named
        obtain rfl := Option.some.inj ((kept version_id found stored).symm.trans present)
        refine Or.inr ⟨later.content.trans shows.content.symm, later.data.trans shows.data.symm,
          later.prompt_meta.trans shows.prompt_meta.symm, fun still => ⟨?_, ?_⟩⟩
        · exact (later.name still).trans (shows.name still).symm
        · exact tags.mp ((later.tags still).trans (shows.tags still).symm)
      · rintro (absent | ⟨content, data, prompt_meta, names⟩)
        · cases absent
        · intro other again
          obtain rfl := Option.some.inj (named.symm.trans again)
          refine ⟨found, kept version_id found stored, belongs, ?_⟩
          exact ⟨content.trans shows.content, data.trans shows.data,
            prompt_meta.trans shows.prompt_meta,
            fun still => (names still).1.trans (shows.name still),
            fun still => (tags.mpr (names still).2).trans (shows.tags still)⟩

theorem checkUpdate_ok {prompt_id : String} {form : PromptForm} {checked : Prompt × PromptForm}
    (passed : checkUpdate tables caller prompt_id form = .ok checked) :
    tables.prompt.get? prompt_id = some checked.1 ∧
      ∃ access_grants : Option (List AccessGrants.Payload),
        access_grants.isSome = form.access_grants.isSome ∧
          checked.2 = { form with access_grants := access_grants } := by
  obtain ⟨prompt, allowed, passed⟩ := bind_eq_ok.mp passed
  obtain ⟨_, _, passed⟩ := bind_eq_ok.mp passed
  obtain ⟨filtered, filters, same⟩ := bind_eq_ok.mp passed
  obtain rfl := Except.ok.inj same
  exact ⟨writable_ok allowed, filterGrants_ok (raised_ok filters)⟩

theorem consistent_updatePrompt {prompt_id user_id : String} {form : PromptForm}
    {checked : Prompt × PromptForm} (new : unused tables fresh = true)
    (passed : checkUpdate tables caller prompt_id form = .ok checked)
    (pinned : Pinned tables renamed) (linked : Linked tables.history) :
    ∃ after, update_prompt_by_id fresh tables prompt_id checked.2 user_id = some after ∧
      Linked after.history ∧
      (Pinned after (if publishes checked.1 form then
        renamed.filter (fun id => decide (id ≠ prompt_id)) else renamed) ↔
          KeepsVersion (prompt_id ∈ renamed) checked.1 form) := by
  obtain ⟨found, access_grants, present, filtered⟩ := checkUpdate_ok passed
  obtain ⟨prompt, allowed⟩ := checked
  dsimp only at found filtered
  subst filtered
  obtain ⟨publishing, changing⟩ := publishes_filtered prompt form present
  have absent := (unused_iff.mp new).2
  refine ⟨updatedTables fresh tables prompt_id prompt
    { form with access_grants := access_grants } user_id, ?_, ?_, ?_⟩
  · rw [update_prompt_by_id, found]
    rfl
  · unfold updatedTables
    dsimp only
    split
    · refine linked.add absent ?_
      intro parent named
      obtain ⟨⟨id, above⟩, latest, rfl⟩ := Option.map_eq_some_iff.mp named
      exact ⟨above, get_latest_history_entry_some latest⟩
    · exact linked
  · unfold updatedTables
    rw [publishing, changing]
    refine (pinned_set_iff ?_).trans (pinnedAt_updated_iff (pinned prompt_id prompt found) absent
      rfl ⟨_, rfl⟩ rfl)
    intro other row apart stored
    refine (pinned other row stored).extend ?_ ?_
    · intro version_id entry _ known
      split
      · exact ⟨entry, get?_set_fresh absent _ known, rfl, rfl⟩
      · exact ⟨entry, known, rfl, rfl⟩
    · split
      · exact mem_unrenamed apart
      · exact Iff.rfl

theorem pinned_delete {history : Histories} {prompt_id history_id : String} {prompt : Prompt}
    (pinned : Pinned tables renamed) (found : tables.prompt.get? prompt_id = some prompt)
    (spared : prompt.version_id ≠ some history_id)
    (done : delete_history_entry tables.history history_id prompt_id = some history) :
    Pinned { tables with history := history } renamed := by
  obtain ⟨entry, present, own, stored⟩ := delete_history_entry_ok done
  intro id row known
  refine (pinned id row known).extend ?_ Iff.rfl
  intro version_id version named there
  have apart : history_id ≠ version_id := by
    rintro rfl
    obtain ⟨pinnedEntry, again, belongs, _⟩ := pinned id row known history_id named
    obtain rfl := Option.some.inj (present.symm.trans again)
    obtain rfl := own.symm.trans belongs
    obtain rfl := Option.some.inj (found.symm.trans known)
    exact spared named
  refine ⟨reparented history_id entry version, ?_, reparented_prompt _ _ _,
    reparented_snapshot _ _ _⟩
  rw [stored, if_neg apart, there]
  rfl

theorem pinned_metadata {prompt_id name command : String} {tags : Option Tags}
    (pinned : Pinned tables renamed)
    (done : update_prompt_metadata tables prompt_id name command tags = some after) :
    Pinned after (prompt_id :: renamed) ∧ after.history = tables.history := by
  obtain ⟨prompt, found, rfl⟩ := Option.map_eq_some_iff.mp done
  refine ⟨(pinned_set_iff ?_).mpr ?_, rfl⟩
  · intro other row apart stored
    refine (pinned other row stored).extend (fun _ entry _ known => ⟨entry, known, rfl, rfl⟩) ?_
    rw [List.mem_cons]
    exact or_iff_right apart
  · intro version_id named
    obtain ⟨entry, known, own, shows⟩ := pinned prompt_id prompt found version_id named
    refine ⟨entry, known, own, shows.content, shows.data, shows.prompt_meta, ?_, ?_⟩
    · exact fun still => absurd List.mem_cons_self still
    · exact fun still => absurd List.mem_cons_self still

theorem pinned_version {prompt_id version_id : String} (pinned : Pinned tables renamed)
    (done : update_prompt_version tables prompt_id version_id = some after) :
    Pinned after (renamed.filter (fun id => decide (id ≠ prompt_id))) ∧
      after.history = tables.history := by
  unfold update_prompt_version at done
  split at done
  · rename_i prompt entry found known
    split at done
    · rename_i own
      obtain rfl := Option.some.inj done
      refine ⟨(pinned_set_iff ?_).mpr ?_, rfl⟩
      · intro other row apart stored
        exact (pinned other row stored).extend
          (fun _ entry _ known => ⟨entry, known, rfl, rfl⟩) (mem_unrenamed apart)
      · intro version named
        obtain rfl := Option.some.inj named
        exact ⟨entry, known, own, rfl, rfl, rfl, fun _ => rfl, fun _ => rfl⟩
    · cases done
  · cases done

end Requests

theorem consistent_step_iff {observed new : Observed} {event : Event}
    (consistent : Consistent observed) (stepped : step observed event = some new) :
    Consistent new ↔ Published observed event := by
  obtain ⟨pinned, linked⟩ := consistent_iff.mp consistent
  unfold step at stepped
  split at stepped
  · rename_i fresh
    obtain ⟨caller, ids, request⟩ := event
    cases request with
    | create_new_prompt form =>
      refine iff_of_true ?_ trivial
      split at stepped
      · rename_i after handled
        obtain rfl := Option.some.inj stepped
        obtain ⟨allowed, _, created⟩ := bind_eq_ok.mp handled
        split at created
        · obtain ⟨filtered, _, created⟩ := bind_eq_ok.mp created
          split at created
          · cases created
          · obtain rfl := Except.ok.inj created
            exact consistent_iff.mpr (consistent_insert fresh caller.id filtered pinned linked)
        · cases created
      · obtain rfl := Option.some.inj stepped
        exact consistent
    | update_prompt_by_id prompt_id form =>
      cases passed : checkUpdate observed.tables caller prompt_id form with
      | error refused =>
        refine iff_of_true ?_ ?_
        · have handled : handle observed.tables ⟨caller, ids, .update_prompt_by_id prompt_id form⟩ =
              .error refused := by
            change (checkUpdate observed.tables caller prompt_id form >>= _) = _
            rw [passed]
            rfl
          rw [handled] at stepped
          obtain rfl := Option.some.inj stepped
          exact consistent
        · intro checked again
          rw [passed] at again
          cases again
      | ok checked =>
        obtain ⟨after, updated, relinked, kept⟩ :=
          @consistent_updatePrompt _ _ _ _ _ caller.id _ _ fresh passed pinned linked
        have handled : handle observed.tables ⟨caller, ids, .update_prompt_by_id prompt_id form⟩ =
            .ok after := by
          refine bind_eq_ok.mpr ⟨checked, passed, ?_⟩
          rw [updated]
          rfl
        rw [handled] at stepped
        obtain rfl := Option.some.inj stepped
        rw [consistent_iff]
        have found := (checkUpdate_ok passed).1
        simp only [noted, found, Option.any_some]
        rw [and_iff_left relinked, kept]
        constructor
        · intro keeps other again
          obtain rfl := Except.ok.inj (passed.symm.trans again)
          exact keeps
        · intro published
          exact published checked passed
    | update_prompt_metadata prompt_id name command tags =>
      refine iff_of_true ?_ trivial
      split at stepped
      · rename_i after handled
        obtain rfl := Option.some.inj stepped
        obtain ⟨prompt, _, handled⟩ := bind_eq_ok.mp handled
        obtain ⟨_, _, handled⟩ := bind_eq_ok.mp handled
        obtain ⟨later, same⟩ := pinned_metadata pinned (orBadRequest_ok handled)
        exact consistent_iff.mpr ⟨later, same ▸ linked⟩
      · obtain rfl := Option.some.inj stepped
        exact consistent
    | set_prompt_version prompt_id version_id =>
      refine iff_of_true ?_ trivial
      split at stepped
      · rename_i after handled
        obtain rfl := Option.some.inj stepped
        obtain ⟨prompt, _, handled⟩ := bind_eq_ok.mp handled
        obtain ⟨later, same⟩ := pinned_version pinned (orBadRequest_ok handled)
        exact consistent_iff.mpr ⟨later, same ▸ linked⟩
      · obtain rfl := Option.some.inj stepped
        exact consistent
    | delete_prompt_history_entry prompt_id history_id =>
      refine iff_of_true ?_ trivial
      split at stepped
      · rename_i after handled
        obtain rfl := Option.some.inj stepped
        obtain ⟨prompt, allowed, handled⟩ := bind_eq_ok.mp handled
        split at handled
        · cases handled
        · rename_i spared
          split at handled
          · cases handled
          · rename_i history deleted
            obtain rfl := Except.ok.inj handled
            exact consistent_iff.mpr
              ⟨pinned_delete pinned (writable_ok allowed) spared deleted, linked.delete deleted⟩
      · obtain rfl := Option.some.inj stepped
        exact consistent
  · cases stepped

/-- The prompts are consistent after each request of a run exactly when each publishes what it
serves. -/
theorem prompts_consistent_iff {start final : Observed} {run : List Event}
    (consistent : Consistent start) (ran : run.foldlM step start = some final) :
    Runs.Throughout Consistent step start run ↔
      Runs.Always (fun earlier event => ∀ observed, earlier.foldlM step start = some observed →
        Published observed event) run :=
  Runs.throughout_iff (fun _ _ _ consistent stepped => consistent_step_iff consistent stepped)
    consistent ran

def noPrompts : Observed := ⟨⟨⟨[], [], [], []⟩, Dict.empty, Dict.empty⟩, []⟩

theorem noPrompts_consistent : Consistent noPrompts := by
  refine consistent_iff.mpr ⟨?_, ?_, ?_⟩
  · intro id prompt found
    cases found
  · intro child entry parent found
    cases found
  · intro node cycle
    obtain ⟨parent, edge, _⟩ := Relation.TransGen.head'_iff.mp cycle
    cases edge.1

def greeting (content : String) (is_production : Bool) : PromptForm where
  command := "hello"
  name := "Greeting"
  content := content
  data := some [("language", .str "en")]
  prompt_meta := some [("tone", .str "kind")]
  tags := none
  access_grants := some []
  commit_message := none
  is_production := some is_production

def byAdmin (now : Int) (uuid history_uuid : String) (request : Request) : Event where
  caller := ⟨"ann", "admin", fun _ => .ok true⟩
  fresh := ⟨now, uuid, history_uuid, fun _ => "grant", 0⟩
  request := request

def publishedRun : List Event :=
  [byAdmin 1 "p" "first" (.create_new_prompt (greeting "Hello" true)),
    byAdmin 2 "q" "second" (.update_prompt_by_id "p" (greeting "Good day" true)),
    byAdmin 3 "q" "third" (.update_prompt_metadata "p" "Welcome" "hello" none)]

theorem published_prompt_consistent :
    Runs.Throughout Consistent step noPrompts publishedRun := by
  obtain ⟨final, ran⟩ := Option.isSome_iff_exists.mp
    (by decide +kernel : (publishedRun.foldlM step noPrompts).isSome = true)
  refine (prompts_consistent_iff noPrompts_consistent ran).mpr ?_
  unfold publishedRun
  rw [Runs.always_cons, Runs.always_cons, Runs.always_cons]
  refine ⟨fun _ _ => trivial, ?_, fun _ _ => trivial, Runs.always_nil _⟩
  intro observed _ checked _
  have publishing : publishes checked.1 (greeting "Good day" true) = true := by
    simp [publishes, content_changed, greeting]
  unfold KeepsVersion
  rw [if_pos publishing]
  refine ⟨?_, ?_⟩
  · intro none
    cases none
  · intro none
    cases none

def savedRun : List Event :=
  [byAdmin 1 "p" "first" (.create_new_prompt (greeting "Hello" true)),
    byAdmin 2 "q" "second" (.update_prompt_by_id "p" (greeting "Good day" false))]

theorem saved_prompt_not_consistent :
    ¬ ∀ (start final : Observed) (run : List Event), Consistent start →
      run.foldlM step start = some final → Consistent final := by
  intro always
  obtain ⟨final, ran⟩ := Option.isSome_iff_exists.mp
    (by decide +kernel : (savedRun.foldlM step noPrompts).isSome = true)
  have consistent := always noPrompts final savedRun noPrompts_consistent ran
  have both : ((savedRun.foldlM step noPrompts).map (fun observed =>
      ((observed.tables.prompt.get? "p").map (fun prompt => (prompt.version_id, prompt.content)),
        (observed.tables.history.get? "first").map (fun entry => entry.snapshot.content)))) =
          some (some (some "first", "Good day"), some "Hello") := by
    decide +kernel
  rw [ran] at both
  obtain ⟨live, saved⟩ := Prod.mk.inj (Option.some.inj both)
  obtain ⟨prompt, found, same⟩ := Option.map_eq_some_iff.mp live
  obtain ⟨named, content⟩ := Prod.mk.inj same
  obtain ⟨entry, stored, _, shows⟩ := consistent.pinned "p" prompt found "first" named
  rw [stored, Option.map_some, ← shows.content, content] at saved
  exact absurd (Option.some.inj saved) (by decide)

end OpenWebui.Prompts
