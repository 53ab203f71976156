import OpenWebui.ModelList.Filtered

/-! Whether the models a user is shown are the ones the user may use, whatever the
metadata defaults. -/

namespace OpenWebui

namespace ModelList

open AccessGrants (Database User)

variable {plugins : Bool} {base : List BaseModel} {settings : ArenaSettings} {constant : Fields}
  {db : Database} {bypass : Bypass} {user : User} {rows : List ModelRow} {shown : List ModelDict}

/-- Shown is what can be used, and the defaults move nothing. A call that raises keeps
no models, and is left aside. -/
structure Offered (plugins : Bool) (base : List BaseModel) (settings : ArenaSettings)
    (constant : Fields) (table : ModelTable) (db : Database) (bypass : Bypass) (user : User) :
    Prop where
  usable : user.role = "user" → ∀ defaults listing kept,
    get_all_models plugins base settings constant defaults table.rows = .ok listing →
    get_filtered_models db bypass user listing.returned = .ok kept →
    ∀ model ∈ listing.returned, model.arena = false →
      (model ∈ kept ↔ check_model_access db table.rows user model = .ok true) ∧
      (model ∈ kept ↔ check_route_access db table.rows user
        (get_model_by_id table.rows model.id) false = true)
  steady : ∀ defaults others first second kept kept',
    get_all_models plugins base settings constant defaults table.rows = .ok first →
    get_all_models plugins base settings constant others table.rows = .ok second →
    get_filtered_models db bypass user first.returned = .ok kept →
    get_filtered_models db bypass user second.returned = .ok kept' →
    ∀ (place : Nat) (model model' : ModelDict), first.returned[place]? = some model →
      second.returned[place]? = some model' → (model ∈ kept ↔ model' ∈ kept')

/-- The `info` that stands for an id says the same with and without defaults: where
there is one, a grant settles it or it names the user exactly when the last model of
the id does; where there is none, the user has a grant exactly as an admin. -/
def Informed (db : Database) (user : User) (shown : List ModelDict) (id : String) : Prop :=
  match (model_infos shown).get? id with
  | some info => Granted db user id ∨
      (info.user_id = some user.id ↔ last_owner shown id = some user.id)
  | none => user.role = "admin" ↔ Granted db user id

/-- The listed models and the rows behind them fit: arena models carry grants of their
own; every id is informed; and for users, a granted model is usable all along its
chain, any other just when its last model names the user as the owner. -/
structure Settled (db : Database) (user : User) (rows : List ModelRow) (shown : List ModelDict) :
    Prop where
  arena : ∀ model ∈ shown, model.arena = true → model.access_grants ≠ .null
  informed : ∀ model ∈ shown, model.arena = false → Informed db user shown model.id
  granted : user.role = "user" → ∀ model ∈ shown, model.arena = false →
    Granted db user model.id → UsableId db user rows model.id
  owned : user.role = "user" → ∀ model ∈ shown, model.arena = false →
    ¬ Granted db user model.id →
      (last_owner shown model.id = some user.id ↔ UsableId db user rows model.id)

/-- Some arena model's own grants cannot be read. -/
def Unreadable (db : Database) (user : User) (shown : List ModelDict) : Prop :=
  ∃ model ∈ shown, model.arena = true ∧ ∃ raised, arena_access db user model = .error raised

/-- When the models shown are those that can be used: of the list made without
defaults, if it is made, every model is usable where nothing is filtered for a user;
where it is filtered, the list is settled or the filter raises. -/
def OfferedWhen (plugins : Bool) (base : List BaseModel) (settings : ArenaSettings)
    (constant : Fields) (table : ModelTable) (db : Database) (bypass : Bypass) (user : User) : Prop :=
  ∀ listing, list_models plugins base settings constant table.rows = .ok listing →
    (filters bypass user = false → user.role = "user" → ∀ model ∈ listing.returned,
      model.arena = false → UsableId db user table.rows model.id) ∧
    (filters bypass user = true →
      Unreadable db user listing.returned ∨ Settled db user table.rows listing.returned)

def ModelDict.defaulted (defaults : Fields) (model : ModelDict) : ModelDict :=
  if defaults.isEmpty then model else model.with_defaults defaults

@[simp] theorem defaulted_id (defaults : Fields) (model : ModelDict) :
    (model.defaulted defaults).id = model.id := by
  unfold ModelDict.defaulted
  split
  · rfl
  · exact with_defaults_id defaults model

@[simp] theorem defaulted_arena (defaults : Fields) (model : ModelDict) :
    (model.defaulted defaults).arena = model.arena := by
  unfold ModelDict.defaulted
  split
  · rfl
  · exact with_defaults_arena defaults model

theorem returned_with_defaults (defaults : Fields) (listing : Listing) :
    (listing.with_defaults defaults).returned =
      listing.returned.map (ModelDict.defaulted defaults) := by
  have models : (listing.with_defaults defaults).models = listing.models := by
    unfold Listing.with_defaults
    split <;> rfl
  rw [Listing.returned, models, Listing.returned, List.map_filterMap]
  refine List.filterMap_congr (fun place member => ?_)
  rw [getElem?_with_defaults]
  refine Option.map_congr (fun model _ => ?_)
  unfold ModelDict.defaulted
  cases empty : defaults.isEmpty with
  | true => simp
  | false => simp [member]

theorem last_owner_of_no_info {id : String} (missing : (model_infos shown).get? id = none) :
    last_owner shown id = none := by
  rw [get?_model_infos] at missing
  have none_informed : ∀ model ∈ shown, plain id model = true → model.has_info = false := by
    intro model member named
    by_contra has
    have inside : model ∈ shown.filter (fun other => plain id other && other.has_info) :=
      List.mem_filter.mpr ⟨member, by rw [named, eq_true_of_ne_false has]; rfl⟩
    have final := List.getLast?_eq_some_getLast (List.ne_nil_of_mem inside)
    rw [final, Option.bind_some] at missing
    have chosen := (List.mem_filter.mp (List.getLast_mem (List.ne_nil_of_mem inside))).2
    rw [ModelDict.has_info, missing, Option.any_none, Bool.and_false] at chosen
    cases chosen
  unfold last_owner
  cases final : (shown.filter (plain id)).getLast? with
  | none => rfl
  | some last =>
    obtain ⟨member, named⟩ := List.mem_filter.mp (List.mem_of_getLast? final)
    have bare := none_informed last member named
    cases info : last.info with
    | none => simp [info]
    | some info' =>
      cases owner : info'.user_id with
      | none => simp [info, owner]
      | some other => simp [ModelDict.has_info, info, Info.truthy, Info.fields, owner] at bare

theorem informed_iff (id : String) : Informed db user shown id ↔
    (ListedTo db user shown id ↔ last_owner shown id = some user.id ∨ Granted db user id) := by
  unfold Informed ListedTo
  cases found : (model_infos shown).get? id with
  | none => simp [last_owner_of_no_info found]
  | some info =>
    simp only
    by_cases granted : Granted db user id
    · simp [granted]
    · simp [granted]

def everyone : Fields :=
  [("access_grants", .arr [.obj [("principal_type", .str "user"), ("principal_id", .str "*"),
    ("permission", .str "read")]])]

theorem arena_access_everyone {model : ModelDict} (bare : model.access_grants = .null) :
    arena_access db user (model.with_defaults everyone) = .ok true := by
  have given : (model.with_defaults everyone).access_grants =
      .arr [.obj [("principal_type", .str "user"), ("principal_id", .str "*"),
        ("permission", .str "read")]] := by
    unfold ModelDict.with_defaults
    split
    · rfl
    · rename_i info present
      have empty : getField (info.metadata.getD []) "access_grants" = .null := by
        cases metadata : info.metadata with
        | none => rfl
        | some fields => simpa [ModelDict.access_grants, present, metadata] using bare
      simp [ModelDict.access_grants, fill_metadata, everyone, empty]
  rw [arena_access, given]
  rfl

theorem keeps_arena {models : List ModelDict} {model : ModelDict} (kind : model.arena = true) :
    keeps db bypass user models model = arena_access db user model := by
  rw [keeps, if_pos kind]

theorem access_grants_of_error {model : ModelDict} {raised : PyError}
    (failed : arena_access db user model = .error raised) : model.access_grants ≠ .null := by
  intro bare
  rw [arena_access, bare] at failed
  cases failed

theorem arena_access_defaulted (defaults : Fields) {model : ModelDict}
    (own : model.access_grants ≠ .null) :
    arena_access db user (model.defaulted defaults) = arena_access db user model := by
  unfold ModelDict.defaulted
  split
  · rfl
  · rw [arena_access, arena_access, access_grants_with_defaults own]

theorem Settled.kept_iff (settled : Settled db user rows shown) (filtered : filters bypass user = true)
    {defaults : Fields} {kept : List ModelDict}
    (done : get_filtered_models db bypass user (shown.map (ModelDict.defaulted defaults)) = .ok kept)
    {model : ModelDict} (member : model ∈ shown) :
    model.defaulted defaults ∈ kept ↔
      (model.arena = true ∧ arena_access db user model = .ok true) ∨
      (model.arena = false ∧
        (last_owner shown model.id = some user.id ∨ Granted db user model.id)) := by
  rw [get_filtered_models_mem filtered done, and_iff_right (List.mem_map_of_mem member)]
  cases kind : model.arena with
  | true =>
    rw [keeps_arena (by rw [defaulted_arena, kind]),
      arena_access_defaulted defaults (settled.arena model member kind)]
    simp
  | false =>
    simp only [Bool.false_eq_true, false_and, true_and, false_or]
    cases empty : defaults.isEmpty with
    | true =>
      have same : ModelDict.defaulted defaults = id := by
        funext other
        simp [ModelDict.defaulted, empty]
      rw [same, List.map_id, id, keeps_plain filtered kind]
      exact (informed_iff model.id).mp (settled.informed model member kind)
    | false =>
      have same : ModelDict.defaulted defaults = ModelDict.with_defaults defaults := by
        funext other
        simp [ModelDict.defaulted, empty]
      rw [same, keeps_plain_with_defaults filtered member kind]

theorem role_of_user (role : user.role = "user") : user.role ≠ "admin" := by
  rw [role]
  decide

theorem Unreadable.raises (unreadable : Unreadable db user shown)
    (filtered : filters bypass user = true) (defaults : Fields) (kept : List ModelDict) :
    get_filtered_models db bypass user (shown.map (ModelDict.defaulted defaults)) ≠ .ok kept := by
  intro done
  obtain ⟨model, member, kind, raised, failed⟩ := unreadable
  obtain ⟨passes, answer⟩ := answered_of_filtered filtered done (model.defaulted defaults)
    (List.mem_map_of_mem member)
  rw [keeps_arena (by rw [defaulted_arena, kind]),
    arena_access_defaulted defaults (access_grants_of_error failed), failed] at answer
  cases answer

theorem get_all_models_ok {defaults : Fields} {listing : Listing}
    (done : get_all_models plugins base settings constant defaults rows = .ok listing) :
    ∃ before, list_models plugins base settings constant rows = .ok before ∧
      listing.returned = before.returned.map (ModelDict.defaulted defaults) := by
  obtain ⟨before, made, rfl⟩ := map_eq_ok.mp done
  exact ⟨before, made, returned_with_defaults defaults before⟩

theorem get_all_models_of_list (defaults : Fields) {before : Listing}
    (made : list_models plugins base settings constant rows = .ok before) :
    ∃ listing, get_all_models plugins base settings constant defaults rows = .ok listing ∧
      listing.returned = before.returned.map (ModelDict.defaulted defaults) :=
  ⟨before.with_defaults defaults, map_eq_ok.mpr ⟨before, made, rfl⟩,
    returned_with_defaults defaults before⟩

theorem checks_iff {table : ModelTable} (role : user.role = "user") {model : ModelDict}
    (kind : model.arena = false) (kept : Prop) :
    ((kept ↔ check_model_access db table.rows user model = .ok true) ∧
      (kept ↔ check_route_access db table.rows user
        (get_model_by_id table.rows model.id) false = true)) ↔
      (kept ↔ UsableId db user table.rows model.id) := by
  rw [check_route_access_iff (role_of_user role) kind,
    check_model_access_iff table.unique (role_of_user role) kind]
  exact and_self_iff

theorem offered_of_when (table : ModelTable)
    (fits : OfferedWhen plugins base settings constant table db bypass user) :
    Offered plugins base settings constant table db bypass user := by
  constructor
  · intro role defaults listing kept done shows model member kind
    obtain ⟨before, made, returned⟩ := get_all_models_ok done
    obtain ⟨unfiltered, settles⟩ := fits before made
    rw [returned] at shows member
    obtain ⟨original, present, rfl⟩ := List.mem_map.mp member
    rw [defaulted_arena] at kind
    rw [checks_iff role (by rw [defaulted_arena, kind]), defaulted_id]
    cases filtered : filters bypass user with
    | false =>
      rw [get_filtered_models, filtered] at shows
      obtain rfl := Except.ok.inj shows
      exact iff_of_true member (unfiltered filtered role original present kind)
    | true =>
      rcases settles filtered with unreadable | settled
      · exact absurd shows (unreadable.raises filtered defaults kept)
      · rw [settled.kept_iff filtered shows present]
        simp only [kind, Bool.false_eq_true, false_and, true_and, false_or]
        by_cases granted : Granted db user original.id
        · exact iff_of_true (.inr granted) (settled.granted role original present kind granted)
        · rw [or_iff_left granted]
          exact settled.owned role original present kind granted
  · intro defaults others first second kept kept' done done' shows shows' place model model' here
      here'
    obtain ⟨before, made, returned⟩ := get_all_models_ok done
    obtain ⟨before', made', returned'⟩ := get_all_models_ok done'
    obtain rfl := Except.ok.inj (made.symm.trans made')
    rw [returned] at shows here
    rw [returned'] at shows' here'
    rw [List.getElem?_map] at here here'
    obtain ⟨original, found, rfl⟩ := Option.map_eq_some_iff.mp here
    obtain ⟨original', found', rfl⟩ := Option.map_eq_some_iff.mp here'
    obtain rfl := Option.some.inj (found.symm.trans found')
    have member := List.mem_of_getElem? found
    cases filtered : filters bypass user with
    | false =>
      rw [get_filtered_models, filtered] at shows shows'
      obtain rfl := Except.ok.inj shows
      obtain rfl := Except.ok.inj shows'
      exact iff_of_true (List.mem_map_of_mem member) (List.mem_map_of_mem member)
    | true =>
      rcases (fits before made).2 filtered with unreadable | settled
      · exact absurd shows (unreadable.raises filtered defaults kept)
      · rw [settled.kept_iff filtered shows member, settled.kept_iff filtered shows' member]

theorem when_of_offered (table : ModelTable)
    (offered : Offered plugins base settings constant table db bypass user) :
    OfferedWhen plugins base settings constant table db bypass user := by
  intro before made
  obtain ⟨bare, listed, returned⟩ := get_all_models_of_list [] made
  have same : ModelDict.defaulted [] = id := rfl
  rw [same, List.map_id] at returned
  refine ⟨fun filtered role model member kind => ?_, fun filtered => ?_⟩
  · have all : get_filtered_models db bypass user bare.returned = .ok before.returned := by
      rw [get_filtered_models, filtered, returned]
      rfl
    have agrees := offered.usable role [] bare before.returned listed all model
      (by rw [returned]; exact member) kind
    exact ((checks_iff role kind _).mp agrees).mp member
  · by_cases unreadable : Unreadable db user before.returned
    · exact .inl unreadable
    refine .inr ?_
    have readable : ∀ model ∈ before.returned, model.arena = true →
        ∃ passes, arena_access db user model = .ok passes := by
      intro model member kind
      cases answer : arena_access db user model with
      | ok passes => exact ⟨passes, rfl⟩
      | error raised => exact absurd ⟨model, member, kind, raised, answer⟩ unreadable
    obtain ⟨kept, shows⟩ := get_filtered_models_ok db before.returned filtered
      (fun model member => by
        cases kind : model.arena with
        | true => rw [keeps_arena kind]; exact readable model member kind
        | false => exact keeps_plain_ok kind)
    obtain ⟨open_listing, listed', returned'⟩ := get_all_models_of_list everyone made
    have applied : ModelDict.defaulted everyone = ModelDict.with_defaults everyone := rfl
    rw [applied] at returned'
    obtain ⟨kept', shows'⟩ := get_filtered_models_ok db
      (before.returned.map (ModelDict.with_defaults everyone)) filtered (by
        intro model member
        obtain ⟨original, present, rfl⟩ := List.mem_map.mp member
        cases kind : original.arena with
        | false => exact keeps_plain_ok (by rw [with_defaults_arena, kind])
        | true =>
          rw [keeps_arena (by rw [with_defaults_arena, kind])]
          by_cases own : original.access_grants = .null
          · exact ⟨true, arena_access_everyone own⟩
          · rw [← applied, arena_access_defaulted everyone own]
            exact readable original present kind)
    rw [← returned] at shows
    rw [← returned'] at shows'
    have steady : ∀ model ∈ before.returned, (model ∈ kept ↔ model.with_defaults everyone ∈ kept') := by
      intro model member
      obtain ⟨place, here⟩ := List.mem_iff_getElem?.mp member
      refine offered.steady [] everyone bare open_listing kept kept' listed listed' shows shows'
        place model _ (by rw [returned]; exact here) ?_
      rw [returned', List.getElem?_map, here]
      rfl
    have kept_iff : ∀ model ∈ before.returned, (model ∈ kept ↔
        keeps db bypass user before.returned model = .ok true) := by
      intro model member
      rw [get_filtered_models_mem filtered shows, returned, and_iff_right member]
    have kept_iff' : ∀ model ∈ before.returned, (model.with_defaults everyone ∈ kept' ↔
        keeps db bypass user (before.returned.map (ModelDict.with_defaults everyone))
          (model.with_defaults everyone) = .ok true) := by
      intro model member
      rw [get_filtered_models_mem filtered shows', returned',
        and_iff_right (List.mem_map_of_mem member)]
    have usable : user.role = "user" → ∀ model ∈ before.returned, model.arena = false →
        (last_owner before.returned model.id = some user.id ∨ Granted db user model.id ↔
          UsableId db user table.rows model.id) := by
      intro role model member kind
      have agrees := offered.usable role everyone open_listing kept' listed' shows'
        (model.with_defaults everyone)
        (by rw [returned']; exact List.mem_map_of_mem member) (by rw [with_defaults_arena, kind])
      rw [checks_iff role (by rw [with_defaults_arena, kind]), with_defaults_id,
        kept_iff' model member, keeps_plain_with_defaults filtered member kind] at agrees
      exact agrees
    refine ⟨?_, ?_, ?_, ?_⟩
    · intro model member kind own
      have open_to_all := (kept_iff' model member).mpr (by
        rw [keeps_arena (by rw [with_defaults_arena, kind])]
        exact arena_access_everyone own)
      have closed := (kept_iff model member).mp ((steady model member).mpr open_to_all)
      rw [keeps_arena kind, arena_access, own] at closed
      cases closed
    · intro model member kind
      rw [informed_iff]
      rw [← keeps_plain filtered kind, ← kept_iff model member, steady model member,
        kept_iff' model member, keeps_plain_with_defaults filtered member kind]
    · intro role model member kind granted
      exact (usable role model member kind).mp (.inr granted)
    · intro role model member kind refused
      have agrees := usable role model member kind
      rwa [or_iff_left refused] at agrees

/-- The models shown are those that can be used, with any defaults, exactly when the
list and the rows behind it fit. -/
theorem offered_iff (plugins : Bool) (base : List BaseModel) (settings : ArenaSettings)
    (constant : Fields) (table : ModelTable) (db : Database) (bypass : Bypass) (user : User) :
    Offered plugins base settings constant table db bypass user ↔
      OfferedWhen plugins base settings constant table db bypass user :=
  ⟨when_of_offered table, offered_of_when table⟩

section Unconfigured

def unconfigured_model : BaseModel where
  ollama := false
  id := "gpt-4o"
  name := "gpt-4o"
  arena := false
  info := none
  rest := []

def empty_workspace : ModelTable := ⟨[], List.nodup_nil⟩

def empty_database : Database where
  access_grant := []
  group := []
  group_member := []
  user := []

def root : User := ⟨"root", "admin", by decide⟩

def described : Fields := [("description", .str "A model.")]

/-- An admin whose access is checked loses an unconfigured model to a default description. -/
theorem unconfigured_not_offered :
    ¬ Offered true [unconfigured_model] ⟨false, []⟩ [] empty_workspace empty_database
      ⟨false, false⟩ root := by
  intro offered
  have listed : get_all_models true [unconfigured_model] ⟨false, []⟩ [] [] empty_workspace.rows =
      .ok ⟨[unconfigured_model.copy], [0]⟩ := by decide +kernel
  have described_list : get_all_models true [unconfigured_model] ⟨false, []⟩ [] described
      empty_workspace.rows =
      .ok ⟨[unconfigured_model.copy.with_defaults described], [0]⟩ := by decide +kernel
  have kept : get_filtered_models empty_database ⟨false, false⟩ root
      (Listing.returned ⟨[unconfigured_model.copy], [0]⟩) = .ok [unconfigured_model.copy] := by
    decide +kernel
  have lost : get_filtered_models empty_database ⟨false, false⟩ root
      (Listing.returned ⟨[unconfigured_model.copy.with_defaults described], [0]⟩) = .ok [] := by
    decide +kernel
  have same := offered.steady [] described _ _ _ _ listed described_list kept lost 0
    unconfigured_model.copy (unconfigured_model.copy.with_defaults described) rfl rfl
  exact absurd (same.mp (List.mem_singleton_self _)) (List.not_mem_nil)

end Unconfigured

end ModelList

end OpenWebui
