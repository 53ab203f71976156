import OpenWebui.ModelList.Applied

/-! Whether the list shows what the table of overrides and presets asks for, and
the tables and base models for which it does. -/

namespace OpenWebui

namespace ModelList

variable {plugins : Bool} {base : List BaseModel} {settings : ArenaSettings} {constant : Fields}
  {rows : List ModelRow} {listing : Listing} {removed : List (String × Nat)}

def arena_ids (settings : ArenaSettings) : List String :=
  (arena_models settings []).map ModelDict.id

/-- The override names the base model, by its id or by its id up to the tag. -/
def Matches (row : ModelRow) (model : BaseModel) : Prop := Named row.id model.copy

/-- The list is the one the overrides and presets ask for. -/
structure Exact (base : List BaseModel) (settings : ArenaSettings) (rows : List ModelRow)
    (listing : Listing) : Prop where
  hidden : ∀ row ∈ rows, row.hides = true → ∀ place ∈ listing.models, place < base.length →
    listing.id_at place ≠ some row.id
  shown : ∀ place model, base[place]? = some model →
    (∀ row ∈ rows, row.hides = true → ¬ Matches row model) → place ∈ listing.models
  named : ∀ place model, base[place]? = some model →
    (∀ row ∈ rows, row.hides = true → ¬ Matches row model) →
    ∀ row ∈ rows, row.overrides = true → row.id = model.id → listing.name_at place = some row.name
  presets : ∀ row ∈ rows, row.is_preset = true → row.id ∉ base.map BaseModel.id →
    row.id ∉ arena_ids settings →
    (listing.models.filter (fun place => decide (listing.id_at place = some row.id))).length = 1

/-- The key leads to a base model of the id. -/
def LeadsTo (base : List BaseModel) (models : List ModelDict) (key id : String) : Prop :=
  ∃ place, Addressed models key place ∧ (base[place]?).map BaseModel.id = some id

instance (base : List BaseModel) (models : List ModelDict) (key id : String) :
    Decidable (LeadsTo base models key id) :=
  decidable_of_iff (∃ place ∈ (base_model_lookup models).get? key,
    (base[place]?).map BaseModel.id = some id) (by simp [LeadsTo, ← lookup_iff])

/-- When the overrides can be applied as they ask: the ids that are read are lists;
no two inactive overrides lead to one model; as many of them lead to base models of
an inactive override's id as there are such base models; and the last active override
that leads to a base model, if any, agrees with the one of its id on the name. -/
structure Applicable (plugins : Bool) (base : List BaseModel) (models : List ModelDict)
    (rows : List ModelRow) : Prop where
  readable : ∀ row ∈ rows, Used models row → Readable plugins row
  separate : Separate models rows
  covered : ∀ row ∈ rows, row.hides = true →
    (base.filter (fun model => decide (model.id = row.id))).length ≤
      (rows.filter (fun other =>
        other.hides && decide (LeadsTo base models other.id row.id))).length
  agreed : ∀ place model, base[place]? = some model →
    (∀ row ∈ rows, row.hides = true → ¬ Matches row model) →
    ∀ row ∈ rows, row.overrides = true → row.id = model.id →
      last_name models rows place model.name = row.name

theorem ids_arena_models (settings : ArenaSettings) (constant : Fields) :
    (arena_models settings constant).map ModelDict.id = arena_ids settings := by
  unfold arena_ids arena_models
  split
  · split <;> rfl
  · rfl

theorem ids_starting_models (base : List BaseModel) (settings : ArenaSettings) (constant : Fields) :
    (starting_models base settings constant).map ModelDict.id =
      base.map BaseModel.id ++ arena_ids settings := by
  rw [starting_models, List.map_append, ids_arena_models, List.map_map]
  rfl

theorem starting_left (settings : ArenaSettings) (constant : Fields) {place : Nat}
    {model : BaseModel} (found : base[place]? = some model) :
    (starting_models base settings constant)[place]? = some model.copy := by
  have bound := (List.getElem?_eq_some_iff.mp found).1
  rw [starting_models, List.getElem?_append_left (by simpa using bound), List.getElem?_map, found]
  rfl

theorem arena_owner {model : ModelDict} (member : model ∈ arena_models settings constant) :
    model.owned_by = "arena" := by
  unfold arena_models at member
  split at member
  · split at member
    · obtain rfl := List.mem_singleton.mp member
      rfl
    · obtain ⟨arena, _, rfl⟩ := List.mem_map.mp member
      rfl
  · cases member

theorem owner_copy (model : BaseModel) : model.copy.owned_by ≠ "arena" := by
  simp only [BaseModel.copy]
  split <;> decide

theorem base_iff {place : Nat} {model : ModelDict}
    (found : (starting_models base settings constant)[place]? = some model) :
    place < base.length ↔ model.owned_by ≠ "arena" := by
  rcases Nat.lt_or_ge place base.length with inside | outside
  · have here := starting_left settings constant
      (List.getElem?_eq_getElem inside)
    obtain rfl := Option.some.inj (here.symm.trans found)
    exact ⟨fun _ => owner_copy _, fun _ => inside⟩
  · rw [starting_models, List.getElem?_append_right (by simpa using outside)] at found
    have owner := arena_owner (List.mem_of_getElem? found)
    exact ⟨fun inside => absurd inside (Nat.not_lt.mpr outside), fun other => absurd owner other⟩

theorem id_of_base {place : Nat} {model : ModelDict}
    (found : (starting_models base settings constant)[place]? = some model)
    (inside : place < base.length) : (base[place]?).map BaseModel.id = some model.id := by
  have here := starting_left settings constant
    (List.getElem?_eq_getElem inside)
  obtain rfl := Option.some.inj (here.symm.trans found)
  rw [List.getElem?_eq_getElem inside]
  rfl

theorem length_filter_range (base : List BaseModel) (id : String) :
    ((List.range base.length).filter
        (fun place => decide ((base[place]?).map BaseModel.id = some id))).length =
      (base.filter (fun model => decide (model.id = id))).length := by
  induction base using List.reverseRecOn with
  | nil => rfl
  | append_singleton base model ih =>
    have before : (List.range base.length).filter
        (fun place => decide (((base ++ [model])[place]?).map BaseModel.id = some id)) =
        (List.range base.length).filter
          (fun place => decide ((base[place]?).map BaseModel.id = some id)) :=
      List.filter_congr (fun place member => by
        rw [List.getElem?_append_left (List.mem_range.mp member)])
    rw [List.length_append, List.length_singleton, List.range_succ, List.filter_append,
      List.filter_append, List.length_append, List.length_append, before, ih]
    congr 1
    by_cases same : model.id = id
    · simp [same]
    · simp [same]

section Progress

variable (progress : Progress (starting_models base settings constant) rows removed listing)
include progress

theorem id_at_base (place : Nat) (inside : place < base.length) :
    listing.id_at place = (base[place]?).map BaseModel.id := by
  have here := starting_left settings constant
    (List.getElem?_eq_getElem inside)
  obtain ⟨now, found, id, _⟩ := progress.kept.same place _ here
  rw [Listing.id_at, found, List.getElem?_eq_getElem inside]
  exact congrArg some id

theorem shown_of_unmatched {place : Nat} {model : BaseModel} (found : base[place]? = some model)
    (unmatched : ∀ row ∈ rows, row.hides = true → ¬ Matches row model) :
    place ∈ listing.models := by
  have here := starting_left settings constant found
  have bound := (List.getElem?_eq_some_iff.mp here).1
  refine (progress.removed.shown place bound).mpr (fun taken => ?_)
  obtain ⟨entry, inside, rfl⟩ := List.mem_map.mp taken
  obtain ⟨row, member, hides, key⟩ := progress.removed.row_of_mem inside
  obtain ⟨target, first, second, addressed, leads, found', id, owner, _⟩ :=
    progress.removed.alike entry inside
  obtain rfl := Option.some.inj (here.symm.trans found')
  obtain ⟨holder, present, named⟩ := addressed.exists_model
  obtain rfl := Option.some.inj (present.symm.trans leads)
  refine unmatched row member hides ?_
  rw [Matches, key, Named, id, owner]
  exact named

theorem name_at_base {place : Nat} {model : BaseModel} (found : base[place]? = some model) :
    listing.name_at place =
      some (last_name (starting_models base settings constant) rows place model.name) := by
  obtain ⟨now, here, _, _, name⟩ := progress.kept.same place _ (starting_left _ _ found)
  rw [Listing.name_at, here]
  exact congrArg some name

theorem taken_iff_leads {entry : String × Nat} (member : entry ∈ removed) (id : String) :
    (base[entry.2]?).map BaseModel.id = some id ↔
      LeadsTo base (starting_models base settings constant) entry.1 id := by
  obtain ⟨target, first, second, addressed, found, found', same, owner, _⟩ :=
    progress.removed.alike entry member
  have kind : entry.2 < base.length ↔ target < base.length := by
    rw [base_iff found', base_iff found, owner]
  constructor
  · intro here
    obtain ⟨model, present, _⟩ := Option.map_eq_some_iff.mp here
    have inside := (List.getElem?_eq_some_iff.mp present).1
    refine ⟨target, addressed, ?_⟩
    rw [id_of_base found' inside, same] at here
    rw [id_of_base found (kind.mp inside)]
    exact here
  · rintro ⟨place, leads, here⟩
    obtain rfl := addressed.unique leads
    obtain ⟨model, present, _⟩ := Option.map_eq_some_iff.mp here
    have inside := (List.getElem?_eq_some_iff.mp present).1
    rw [id_of_base found inside] at here
    rw [id_of_base found' (kind.mpr inside), same]
    exact here

theorem length_taken (id : String) :
    ((removed.map Prod.snd).filter
        (fun place => decide ((base[place]?).map BaseModel.id = some id))).length =
      (rows.filter (fun other => other.hides &&
        decide (LeadsTo base (starting_models base settings constant) other.id id))).length := by
  have by_key : removed.filter (fun entry => decide ((base[entry.2]?).map BaseModel.id = some id)) =
      removed.filter (fun entry =>
        decide (LeadsTo base (starting_models base settings constant) entry.1 id)) :=
    List.filter_congr (fun entry member =>
      decide_eq_decide.mpr (taken_iff_leads progress member id))
  have leading : rows.filter (fun other => other.hides &&
      decide (LeadsTo base (starting_models base settings constant) other.id id)) =
      (rows.filter (removes (starting_models base settings constant))).filter (fun other =>
        decide (LeadsTo base (starting_models base settings constant) other.id id)) := by
    rw [List.filter_filter]
    refine List.filter_congr (fun other _ => ?_)
    by_cases leads : LeadsTo base (starting_models base settings constant) other.id id
    · obtain ⟨place, addressed, _⟩ := leads
      have target : ((base_model_lookup (starting_models base settings constant)).get?
          other.id).isSome = true := by rw [lookup_iff.mpr addressed]; rfl
      simp [removes, target, Bool.and_comm]
    · simp [leads]
  have keys := congrArg (fun keys => (keys.filter (fun key =>
    decide (LeadsTo base (starting_models base settings constant) key id))).length)
    progress.removed.keys
  simp only [List.filter_map, List.length_map, Function.comp_def] at keys
  rw [leading, List.filter_map, List.length_map, Function.comp_def, by_key]
  exact keys

theorem hidden_iff (id : String) :
    (∀ place ∈ listing.models, place < base.length → listing.id_at place ≠ some id) ↔
      (base.filter (fun model => decide (model.id = id))).length ≤
        (rows.filter (fun other => other.hides &&
          decide (LeadsTo base (starting_models base settings constant) other.id id))).length := by
  rw [← length_taken progress, ← length_filter_range]
  have inside_of : ∀ place, (base[place]?).map BaseModel.id = some id → place < base.length := by
    intro place here
    obtain ⟨model, present, _⟩ := Option.map_eq_some_iff.mp here
    exact (List.getElem?_eq_some_iff.mp present).1
  have long : base.length ≤ (starting_models base settings constant).length := by
    simp [starting_models]
  have shown := fun place inside =>
    progress.removed.shown place (Nat.lt_of_lt_of_le inside long)
  have distinct := progress.removed.distinct.filter
    (fun place => decide ((base[place]?).map BaseModel.id = some id))
  have within : (removed.map Prod.snd).filter
      (fun place => decide ((base[place]?).map BaseModel.id = some id)) ⊆
      (List.range base.length).filter
        (fun place => decide ((base[place]?).map BaseModel.id = some id)) := by
    intro place member
    obtain ⟨_, here⟩ := List.mem_filter.mp member
    exact List.mem_filter.mpr ⟨List.mem_range.mpr (inside_of place (of_decide_eq_true here)), here⟩
  have contained := List.subperm_of_subset distinct within
  constructor
  · intro hidden
    refine (List.subperm_of_subset (List.nodup_range.filter _) ?_).length_le
    intro place member
    obtain ⟨inside, here⟩ := List.mem_filter.mp member
    refine List.mem_filter.mpr ⟨?_, here⟩
    by_contra missing
    have bound := List.mem_range.mp inside
    refine hidden place ((shown place bound).mpr missing) bound ?_
    rw [id_at_base progress place bound]
    exact of_decide_eq_true here
  · intro enough place member inside same
    rw [id_at_base progress place inside] at same
    have counted : place ∈ (List.range base.length).filter
        (fun place => decide ((base[place]?).map BaseModel.id = some id)) :=
      List.mem_filter.mpr ⟨List.mem_range.mpr inside, decide_eq_true same⟩
    have taken := (contained.perm_of_length_le enough).mem_iff.mpr counted
    exact (shown place inside).mp member (List.mem_filter.mp taken).1

theorem preset_once (unique : (rows.map ModelRow.id).Nodup) {row : ModelRow} (member : row ∈ rows)
    (preset : row.is_preset = true)
    (fresh : row.id ∉ (starting_models base settings constant).map ModelDict.id) :
    (listing.models.filter (fun place => decide (listing.id_at place = some row.id))).length = 1 := by
  have later : listing.models.filter (fun place => decide (listing.id_at place = some row.id)) =
      (listing.models.filter (fun place =>
        decide ((starting_models base settings constant).length ≤ place))).filter
          (fun place => decide (listing.id_at place = some row.id)) := by
    rw [List.filter_filter]
    refine List.filter_congr (fun place _ => ?_)
    rcases Nat.lt_or_ge place (starting_models base settings constant).length with inside | outside
    · have here := List.getElem?_eq_getElem inside
      obtain ⟨now, found, id, _⟩ := progress.kept.same place _ here
      have different : listing.id_at place ≠ some row.id := by
        rw [Listing.id_at, found]
        intro same
        refine fresh ?_
        rw [← Option.some.inj same, id]
        exact List.mem_map_of_mem (List.mem_of_getElem? here)
      simp [different]
    · simp [outside]
  have added := progress.appended.ids
  have counted : ∀ places : List Nat,
      (places.filter (fun place => decide (listing.id_at place = some row.id))).length =
        (places.filterMap listing.id_at).count row.id := by
    intro places
    induction places with
    | nil => rfl
    | cons place rest ih =>
      cases here : listing.id_at place with
      | none => simp [here, ih]
      | some id =>
        by_cases same : id = row.id
        · subst same
          simp [here, ih]
        · simp [here, ih, same]
  rw [later, counted]
  change ((listing.models.filter _).filterMap (fun place =>
    (listing.objects[place]?).map ModelDict.id)).count row.id = 1
  rw [added]
  refine List.count_eq_one_of_mem (unique.sublist (List.filter_sublist.map _)) ?_
  exact List.mem_map_of_mem (List.mem_filter.mpr ⟨member, by
    rw [preset, decide_eq_true fresh]
    rfl⟩)

end Progress

theorem with_defaults_frame (defaults : Fields) (listing : Listing) :
    (listing.with_defaults defaults).models = listing.models ∧
      (listing.with_defaults defaults).id_at = listing.id_at ∧
      (listing.with_defaults defaults).name_at = listing.name_at := by
  have same : ∀ place : Nat, ((listing.with_defaults defaults).objects[place]?).map
      (fun model : ModelDict => (model.id, model.name)) =
        (listing.objects[place]?).map (fun model : ModelDict => (model.id, model.name)) := by
    intro place
    rw [getElem?_with_defaults, Option.map_map]
    refine Option.map_congr (fun model _ => ?_)
    simp only [Function.comp_apply]
    split
    · unfold ModelDict.with_defaults
      split <;> rfl
    · rfl
  refine ⟨?_, funext (fun place => ?_), funext (fun place => ?_)⟩
  · unfold Listing.with_defaults
    split <;> rfl
  · simpa [Listing.id_at, Option.map_map, Function.comp_def] using
      congrArg (Option.map Prod.fst) (same place)
  · simpa [Listing.name_at, Option.map_map, Function.comp_def] using
      congrArg (Option.map Prod.snd) (same place)

theorem exact_with_defaults (defaults : Fields) :
    Exact base settings rows (listing.with_defaults defaults) ↔ Exact base settings rows listing := by
  obtain ⟨models, ids, names⟩ := with_defaults_frame defaults listing
  constructor
  · rintro ⟨hidden, shown, named, presets⟩
    rw [models] at hidden shown presets
    rw [ids] at hidden presets
    rw [names] at named
    exact ⟨hidden, shown, named, presets⟩
  · rintro ⟨hidden, shown, named, presets⟩
    rw [← models] at hidden shown presets
    rw [← ids] at hidden presets
    rw [← names] at named
    exact ⟨hidden, shown, named, presets⟩

/-- When the overrides and presets of a table are applied exactly: with no base model
nothing is listed, so no active preset may be new; otherwise the overrides have to be
applicable. -/
def ExactWhen (plugins : Bool) (base : List BaseModel) (settings : ArenaSettings)
    (constant : Fields) (rows : List ModelRow) : Prop :=
  if base.isEmpty then ∀ row ∈ rows, row.is_preset = true → row.id ∈ arena_ids settings
  else Applicable plugins base (starting_models base settings constant) rows

theorem list_models_exact_iff (plugins : Bool) (base : List BaseModel) (settings : ArenaSettings)
    (constant : Fields) (table : ModelTable) :
    (∃ listing, list_models plugins base settings constant table.rows = .ok listing ∧
      Exact base settings table.rows listing) ↔
      ExactWhen plugins base settings constant table.rows := by
  unfold list_models ExactWhen
  by_cases empty : base.isEmpty = true
  · obtain rfl := List.isEmpty_iff.mp empty
    simp only [List.isEmpty_nil, if_true]
    constructor
    · rintro ⟨listing, done, exactly⟩ row member preset
      obtain rfl := Except.ok.inj done
      by_contra fresh
      simpa using exactly.presets row member preset (by simp) fresh
    · intro none_new
      refine ⟨_, rfl, by simp, by simp, by simp, ?_⟩
      intro row member preset _ fresh
      exact absurd (none_new row member preset) fresh
  · rw [if_neg empty, if_neg empty]
    have start : Progress (starting_models base settings constant) [] []
        ⟨starting_models base settings constant,
          List.range (starting_models base settings constant).length⟩ :=
      ⟨kept_start _, appended_start _, removed_start _⟩
    constructor
    · rintro ⟨listing, done, exactly⟩
      obtain ⟨⟨removed, progress⟩, readable⟩ := start.run done
      rw [List.nil_append] at progress
      refine ⟨readable, progress.separate, fun row member hides => ?_, ?_⟩
      · exact (hidden_iff progress row.id).mp (exactly.hidden row member hides)
      · intro place model found unmatched row member overrides same
        have name := exactly.named place model found unmatched row member overrides same
        rw [name_at_base progress found] at name
        exact Option.some.inj name
    · intro applicable
      obtain ⟨listing, done⟩ := start.run_ok (by simpa using table.unique) applicable.readable
        (by simpa using applicable.separate)
      obtain ⟨⟨removed, progress⟩, _⟩ := start.run done
      rw [List.nil_append] at progress
      refine ⟨listing, done, ?_, ?_, ?_, ?_⟩
      · intro row member hides
        exact (hidden_iff progress row.id).mpr (applicable.covered row member hides)
      · intro place model found unmatched
        exact shown_of_unmatched progress found unmatched
      · intro place model found unmatched row member overrides same
        rw [name_at_base progress found,
          applicable.agreed place model found unmatched row member overrides same]
      · intro row member preset other other'
        refine preset_once progress table.unique member preset ?_
        rw [ids_starting_models, List.mem_append]
        exact not_or.mpr ⟨other, other'⟩

section Twice

def tagged_model : BaseModel where
  ollama := true
  id := "llama3:8b"
  name := "llama3:8b"
  arena := false
  info := none
  rest := []

def hiding_row (id : String) : ModelRow where
  id := id
  user_id := "admin"
  base_model_id := none
  name := id
  is_active := false
  metadata := []
  chat_variables_schema := none
  created_at := 0
  rest := []

def hidden_twice : ModelTable where
  rows := [hiding_row "llama3:8b", hiding_row "llama3"]
  unique := by decide

end Twice

end ModelList

end OpenWebui
