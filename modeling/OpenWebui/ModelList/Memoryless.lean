import OpenWebui.ModelList.Applied

/-! A process that lists its models again and again. -/

namespace OpenWebui

namespace ModelList

/-- `app.state`, with every list of provider dictionaries that is still referred to.
`base_models` is the place of `BASE_MODELS` among them, `listed` whether `MODELS` has
an entry, `arena_meta` the built-in arena model's `meta`. -/
structure Process where
  fetched : List (List BaseModel)
  base_models : Option Nat
  listed : Bool
  arena_meta : Fields

/-- One request for the list, with the configuration and the workspace as they then
are. `served` is the earlier answer the providers' own short cache gives again. -/
structure Call where
  refresh : Bool
  served : Option Nat
  arena : ArenaSettings
  default_metadata : Fields
  table : ModelTable

def Process.list_at (process : Process) (place : Option Nat) : List BaseModel :=
  (place.bind (fun place => process.fetched[place]?)).getD []

def Process.fetch (process : Process) (answer : List BaseModel) (served : Option Nat) :
    Process × Nat :=
  match served.filter (fun place => decide (place < process.fetched.length)) with
  | some place => (process, place)
  | none => ({ process with fetched := process.fetched ++ [answer] }, process.fetched.length)

def Process.start (process : Process) (answer : List BaseModel) (call : Call) :
    Process × Option Nat :=
  if process.listed ∧ (process.list_at process.base_models).isEmpty = false ∧
      call.refresh = false then (process, process.base_models)
  else
    let (process, place) := process.fetch answer call.served
    if (process.list_at (some place)).isEmpty then (process, process.base_models)
    else ({ process with base_models := some place }, some place)

def write_back (base : List BaseModel) (objects : List ModelDict) : List BaseModel :=
  base.zipIdx.map (fun entry =>
    match objects[entry.2]? with
    | some object => if object.info_shared then { entry.1 with info := object.info } else entry.1
    | none => entry.1)

def arena_write_back (base : List BaseModel) (constant : Fields) (objects : List ModelDict) :
    Fields :=
  match objects[base.length]? with
  | some object =>
    if object.info_shared then (object.info.bind Info.metadata).getD constant else constant
  | none => constant

def ModelDict.value (model : ModelDict) : ModelDict := { model with info_shared := false }

def Listing.result (listing : Listing) : List ModelDict := listing.returned.map ModelDict.value

/-- One call of `get_all_models`: the process after it and what it returns or raises. -/
def Process.get_all_models (plugins : Bool) (answer : List BaseModel) (process : Process)
    (call : Call) : Process × Except PyError (List ModelDict) :=
  let (process, place) := process.start answer call
  let base := process.list_at place
  match ModelList.get_all_models plugins base call.arena process.arena_meta call.default_metadata
    call.table.rows with
  | .error raised => (process, .error raised)
  | .ok listing =>
    if base.isEmpty then (process, .ok [])
    else
      ({ fetched := process.fetched.modify (place.getD 0) (fun base => write_back base listing.objects)
         base_models := process.base_models
         listed := !listing.models.isEmpty
         arena_meta := arena_write_back base process.arena_meta listing.objects },
       .ok listing.result)

/-- `DEFAULT_ARENA_MODEL['meta']` as the program starts with it. -/
def default_arena_meta : Fields :=
  [("profile_image_url", .str "/favicon.png"),
   ("description",
    .str "Submit your questions to anonymous AI chatbots and vote on the best response."),
   ("model_ids", .null)]

def Process.fresh : Process where
  fetched := []
  base_models := none
  listed := false
  arena_meta := default_arena_meta

def Process.run (plugins : Bool) (answer : List BaseModel) :
    Process → List Call → List (Except PyError (List ModelDict))
  | _, [] => []
  | process, call :: rest =>
    let (after, result) := process.get_all_models plugins answer call
    result :: Process.run plugins answer after rest

def fresh_result (plugins : Bool) (answer : List BaseModel) (call : Call) :
    Except PyError (List ModelDict) :=
  (Process.fresh.get_all_models plugins answer call).2

/-- The metadata has all the defaults would fill in. -/
def Full (defaults : Fields) (info : Info) : Prop :=
  ∃ fields, info.metadata = some fields ∧ fill_metadata defaults fields = fields

/-- The one dictionary of its id, which an inactive override leads to. -/
def HiddenAlone (models : List ModelDict) (rows : List ModelRow) (place : Nat) : Prop :=
  (∃ row ∈ rows, row.hides = true ∧ Addressed models row.id place) ∧
    ∀ other, (models[other]?).map ModelDict.id = (models[place]?).map ModelDict.id →
      other < models.length → other = place

/-- The call fills in no `info` that outlives it: there are no defaults or no base
models; or the list is not made; or every shared `info` is replaced by an active
override, is of a model taken out of the list, or has nothing to fill in. -/
def Quiet (plugins : Bool) (answer : List BaseModel) (call : Call) : Prop :=
  call.default_metadata = [] ∨ answer = [] ∨
    (let models := starting_models answer call.arena default_arena_meta
     (¬ Separate models call.table.rows ∨
        ∃ row ∈ call.table.rows, Used models row ∧ ¬ Readable plugins row) ∨
      ∀ place model info, models[place]? = some model → model.info_shared = true →
        model.info = some info →
        (∃ row ∈ call.table.rows, row.overrides = true ∧ Addressed models row.id place) ∨
          HiddenAlone models call.table.rows place ∨ Full call.default_metadata info)

variable {plugins : Bool} {models : List ModelDict} {rows : List ModelRow} {listing : Listing}

/-- A dictionary that still shares its `info` is as it was copied, and no active
override has led to it. -/
structure Sharing (models : List ModelDict) (rows : List ModelRow) (listing : Listing) : Prop where
  original : ∀ (place : Nat) (now : ModelDict), listing.objects[place]? = some now →
    now.info_shared = true →
    models[place]? = some now
  overridden : ∀ row ∈ rows, row.overrides = true → ∀ place, Addressed models row.id place →
    ∀ now : ModelDict, listing.objects[place]? = some now → now.info_shared = false

theorem sharing_start (models : List ModelDict) :
    Sharing models [] ⟨models, List.range models.length⟩ where
  original := fun _ _ present _ => present
  overridden := by simp

theorem Sharing.quiet {row : ModelRow} {next : Listing} (sharing : Sharing models rows listing)
    (idle : row.overrides = false ∨ ∀ place, ¬ Addressed models row.id place)
    (same : next.objects = listing.objects) : Sharing models (rows ++ [row]) next := by
  refine ⟨by rw [same]; exact sharing.original, ?_⟩
  intro other member kind place addressed now present
  rw [same] at present
  rcases List.mem_append.mp member with member | member
  · exact sharing.overridden other member kind place addressed now present
  · obtain rfl := List.mem_singleton.mp member
    rcases idle with none_written | missing
    · rw [none_written] at kind
      cases kind
    · exact absurd addressed (missing place)

theorem Sharing.step {row : ModelRow} {next : Listing} (sharing : Sharing models rows listing)
    (step : RowStep plugins models listing row next) : Sharing models (rows ++ [row]) next := by
  cases step with
  | unmatched override missing => exact sharing.quiet (.inr missing) rfl
  | unused preset => exact sharing.quiet (.inl (overrides_of_isSome preset)) rfl
  | overridden place action_ids filter_ids kind readable addressed =>
    have changed : ∀ other now, (listing.objects.modify place
        (row.override action_ids filter_ids))[other]? = some now →
        (other = place ∧ now.info_shared = false) ∨
          (other ≠ place ∧ listing.objects[other]? = some now) := by
      intro other now present
      by_cases same : place = other
      · subst same
        obtain ⟨before, _, rfl⟩ : ∃ before, listing.objects[place]? = some before ∧
            row.override action_ids filter_ids before = now := by simpa using present
        exact .inl ⟨rfl, rfl⟩
      · exact .inr ⟨Ne.symm same, by simpa [same] using present⟩
    refine ⟨fun other now present shared => ?_, ?_⟩
    · rcases changed other now present with ⟨_, own⟩ | ⟨_, before⟩
      · rw [own] at shared
        cases shared
      · exact sharing.original other now before shared
    · intro other member kind' at_place leads now present
      rcases changed at_place now present with ⟨_, own⟩ | ⟨different, before⟩
      · exact own
      · rcases List.mem_append.mp member with member | member
        · exact sharing.overridden other member kind' at_place leads now before
        · obtain rfl := List.mem_singleton.mp member
          exact absurd (leads.unique addressed) different
  | hidden place gone kind => exact sharing.quiet (.inl (overrides_of_hides kind)) rfl
  | appended dict kind readable fresh named own =>
    have preset : row.base_model_id.isSome = true := (Bool.and_eq_true_iff.mp kind).1
    have before := @Sharing.quiet models rows listing row listing sharing
      (.inl (overrides_of_isSome preset)) rfl
    have older : ∀ (place : Nat) (now : ModelDict), (listing.objects ++ [dict])[place]? = some now →
        now.info_shared = false ∨ listing.objects[place]? = some now := by
      intro place now present
      rcases Nat.lt_or_ge place listing.objects.length with inside | outside
      · rw [List.getElem?_append_left inside] at present
        exact .inr present
      · rw [List.getElem?_append_right outside] at present
        obtain rfl := List.mem_singleton.mp (List.mem_of_getElem? present)
        exact .inl own
    refine ⟨fun place now present shared => ?_, ?_⟩
    · rcases older place now present with own | present
      · rw [own] at shared
        cases shared
      · exact before.original place now present shared
    · intro other member kind' place leads now present
      rcases older place now present with own | present
      · exact own
      · exact before.overridden other member kind' place leads now present

theorem Sharing.run {rest : List ModelRow} {final : Listing} (sharing : Sharing models rows listing)
    (done : apply_rows plugins models rest listing = .ok final) :
    Sharing models (rows ++ rest) final := by
  induction rest generalizing rows listing with
  | nil =>
    obtain rfl := Except.ok.inj done
    simpa using sharing
  | cons row rest ih =>
    rw [apply_rows, List.foldlM_cons] at done
    obtain ⟨next, first, later⟩ := bind_eq_ok.mp done
    simpa using ih (sharing.step (apply_row_cases first)) later

end ModelList

end OpenWebui

namespace OpenWebui

namespace ModelList

variable {plugins : Bool} {models : List ModelDict} {rows : List ModelRow} {listing : Listing}
  {answer : List BaseModel} {call : Call} {process : Process} {removed : List (String × Nat)}

theorem HiddenAlone.not_shown {place : Nat} (progress : Progress models rows removed listing)
    (hidden : HiddenAlone models rows place) : place ∉ listing.models := by
  obtain ⟨⟨row, member, hides, addressed⟩, alone⟩ := hidden
  have key : row.id ∈ removed.map Prod.fst := by
    rw [progress.removed.keys]
    exact List.mem_map_of_mem
      (List.mem_filter.mpr ⟨member, removes_iff.mpr ⟨hides, place, addressed⟩⟩)
  obtain ⟨entry, present, same⟩ := List.mem_map.mp key
  obtain ⟨target, first, second, leads, found, found', id, _⟩ :=
    progress.removed.alike entry present
  rw [same] at leads
  obtain rfl := addressed.unique leads
  have taken : entry.2 = place := by
    refine alone entry.2 ?_ (List.getElem?_eq_some_iff.mp found').1
    rw [found, found']
    exact congrArg some id
  intro shown
  refine (progress.removed.shown place addressed.lt).mp shown ?_
  rw [← taken]
  exact List.mem_map_of_mem present

theorem with_defaults_of_full {defaults : Fields} {model : ModelDict} {info : Info}
    (found : model.info = some info) (full : Full defaults info) :
    (model.with_defaults defaults).info = model.info := by
  obtain ⟨fields, has, filled⟩ := full
  unfold ModelDict.with_defaults
  split
  · rename_i missing
    rw [missing] at found
    cases found
  · rename_i info' present
    rw [present] at found
    obtain rfl := Option.some.inj found
    rw [present]
    simp only [has, Option.getD_some, filled]
    rw [← has]

theorem info_unchanged (quiet : Quiet plugins answer call) (filled : answer.isEmpty = false)
    (done : list_models plugins answer call.arena default_arena_meta call.table.rows =
      .ok listing) (place : Nat) (now : ModelDict)
    (present : (listing.with_defaults call.default_metadata).objects[place]? = some now)
    (shared : now.info_shared = true) :
    ∃ model, (starting_models answer call.arena default_arena_meta)[place]? = some model ∧
      now.info = model.info := by
  rw [list_models, if_neg (by rw [filled]; exact Bool.false_ne_true)] at done
  have sharing := (sharing_start _).run done
  have start : Progress (starting_models answer call.arena default_arena_meta) [] []
      ⟨starting_models answer call.arena default_arena_meta,
        List.range (starting_models answer call.arena default_arena_meta).length⟩ :=
    ⟨kept_start _, appended_start _, removed_start _⟩
  obtain ⟨⟨removed, progress⟩, readable⟩ := start.run done
  rw [List.nil_append] at sharing progress
  rw [getElem?_with_defaults] at present
  obtain ⟨before, found, rfl⟩ := Option.map_eq_some_iff.mp present
  split at shared
  · rename_i fills
    rw [if_pos fills]
    cases info : before.info with
    | none => simp [ModelDict.with_defaults, info] at shared
    | some own =>
      have still : before.info_shared = true := by
        simpa [ModelDict.with_defaults, info] using shared
      have original := sharing.original place before found still
      refine ⟨before, original, ?_⟩
      rcases quiet with none_given | no_models | not_made | each
      · simp [none_given] at fills
      · simp [no_models] at filled
      · rcases not_made with together | ⟨row, member, used, unreadable⟩
        · exact absurd progress.separate together
        · exact absurd (readable row member used) unreadable
      · rcases each place before own original still info with
          ⟨row, member, kind, addressed⟩ | hidden | full
        · rw [sharing.overridden row member kind place addressed before found] at still
          cases still
        · exact absurd fills.2 (hidden.not_shown progress)
        · exact with_defaults_of_full info full
  · rename_i skipped
    rw [if_neg skipped]
    exact ⟨before, sharing.original place before found shared, rfl⟩

theorem write_back_unchanged (quiet : Quiet plugins answer call) (filled : answer.isEmpty = false)
    (done : list_models plugins answer call.arena default_arena_meta call.table.rows =
      .ok listing) :
    write_back answer (listing.with_defaults call.default_metadata).objects = answer := by
  refine List.ext_getElem? (fun place => ?_)
  rw [write_back, List.getElem?_map, List.getElem?_zipIdx]
  cases found : answer[place]? with
  | none => rfl
  | some model =>
    simp only [Option.map_some, Nat.zero_add]
    split
    · rename_i now present
      split
      · rename_i shared
        obtain ⟨original, here, same⟩ := info_unchanged quiet filled done place now present shared
        have bound := (List.getElem?_eq_some_iff.mp found).1
        rw [starting_models, List.getElem?_append_left (by simpa using bound), List.getElem?_map,
          found] at here
        obtain rfl := Option.some.inj here
        rw [same]
        rfl
      · rfl
    · rfl

theorem arena_write_back_unchanged (quiet : Quiet plugins answer call)
    (filled : answer.isEmpty = false)
    (done : list_models plugins answer call.arena default_arena_meta call.table.rows =
      .ok listing) :
    arena_write_back answer default_arena_meta
      (listing.with_defaults call.default_metadata).objects = default_arena_meta := by
  unfold arena_write_back
  split
  · rename_i now present
    split
    · rename_i shared
      obtain ⟨original, here, same⟩ :=
        info_unchanged quiet filled done answer.length now present shared
      rw [starting_models, List.getElem?_append_right (by simp)] at here
      have member := List.mem_of_getElem? here
      unfold arena_models at member
      split at member
      · split at member
        · obtain rfl := List.mem_singleton.mp member
          rw [same]
          rfl
        · -- A configured arena model shares nothing, so this one was not copied from it.
          obtain ⟨arena, _, rfl⟩ := List.mem_map.mp member
          rename_i none_default
          have listed : (arena_models call.arena default_arena_meta)[0]? =
              some (arena.dict false) := by simpa using here
          have sharing := (sharing_start (starting_models answer call.arena default_arena_meta)).run
            (by rw [list_models, if_neg (by rw [filled]; exact Bool.false_ne_true)] at done
                exact done)
          rw [getElem?_with_defaults] at present
          obtain ⟨before, found, rfl⟩ := Option.map_eq_some_iff.mp present
          have still : before.info_shared = true := by
            split at shared
            · cases info : before.info with
              | none => simp [ModelDict.with_defaults, info] at shared
              | some own => simpa [ModelDict.with_defaults, info] using shared
            · exact shared
          have original := sharing.original answer.length before found still
          rw [starting_models, List.getElem?_append_right (by simp)] at original
          have same_dict := Option.some.inj (original.symm.trans here)
          rw [same_dict] at still
          cases still
      · cases member
    · rfl
  · rfl

/-- No call so far has left anything in what the process keeps. -/
structure Clean (answer : List BaseModel) (process : Process) : Prop where
  same : ∀ base ∈ process.fetched, base = answer
  placed : ∀ place, process.base_models = some place → place < process.fetched.length
  constant : process.arena_meta = default_arena_meta

theorem clean_fresh (answer : List BaseModel) : Clean answer Process.fresh where
  same := by simp [Process.fresh]
  placed := by simp [Process.fresh]
  constant := rfl

theorem Clean.list_at (clean : Clean answer process) {place : Nat}
    (bound : place < process.fetched.length) : process.list_at (some place) = answer := by
  have here := List.getElem?_eq_getElem bound
  simp only [Process.list_at, Option.bind_some, here, Option.getD_some]
  exact clean.same _ (List.getElem_mem bound)

theorem Clean.fetch (clean : Clean answer process) (served : Option Nat) :
    Clean answer (process.fetch answer served).1 ∧
      (process.fetch answer served).2 < (process.fetch answer served).1.fetched.length := by
  unfold Process.fetch
  split
  · rename_i place kept
    obtain ⟨_, bound⟩ := Option.filter_eq_some_iff.mp kept
    exact ⟨clean, of_decide_eq_true bound⟩
  · refine ⟨⟨?_, ?_, clean.constant⟩, by simp⟩
    · intro base member
      rcases List.mem_append.mp member with member | member
      · exact clean.same base member
      · exact List.mem_singleton.mp member
    · intro place held
      exact Nat.lt_of_lt_of_le (clean.placed place held) (by simp)

theorem Clean.start (clean : Clean answer process) (call : Call) :
    Clean answer (process.start answer call).1 ∧
      (process.start answer call).1.list_at (process.start answer call).2 = answer := by
  have held : ∀ process, Clean answer process →
      (process.list_at process.base_models).isEmpty = false →
      process.list_at process.base_models = answer := by
    intro process clean listed
    cases current : process.base_models with
    | none => simp [current, Process.list_at] at listed
    | some place => exact clean.list_at (clean.placed place current)
  unfold Process.start
  split
  · rename_i cached
    exact ⟨clean, held process clean cached.2.1⟩
  · obtain ⟨after, bound⟩ := clean.fetch call.served
    generalize process.fetch answer call.served = result at after bound
    obtain ⟨next, place⟩ := result
    have list := after.list_at bound
    simp only [list]
    split
    · rename_i empty
      refine ⟨after, ?_⟩
      rw [List.isEmpty_iff.mp empty] at after ⊢
      cases listed : (next.list_at next.base_models).isEmpty with
      | true => exact List.isEmpty_iff.mp listed
      | false =>
        cases current : next.base_models with
        | none => simp [current, Process.list_at] at listed
        | some place => exact after.list_at (after.placed place current)
    · refine ⟨⟨after.same, ?_, after.constant⟩, list⟩
      intro other set
      obtain rfl := Option.some.inj set
      exact bound

def answer_of (plugins : Bool) (answer : List BaseModel) (call : Call) :
    Except PyError (List ModelDict) :=
  match ModelList.get_all_models plugins answer call.arena default_arena_meta
    call.default_metadata call.table.rows with
  | .error raised => .error raised
  | .ok listing => if answer.isEmpty then .ok [] else .ok listing.result

theorem Clean.result (clean : Clean answer process) (call : Call) :
    (process.get_all_models plugins answer call).2 = answer_of plugins answer call := by
  obtain ⟨after, list⟩ := clean.start call
  unfold Process.get_all_models answer_of
  generalize process.start answer call = result at after list
  obtain ⟨next, place⟩ := result
  simp only at after list ⊢
  rw [list, after.constant]
  cases ModelList.get_all_models plugins answer call.arena default_arena_meta
      call.default_metadata call.table.rows with
  | error raised => rfl
  | ok listing =>
    simp only
    split <;> rfl

theorem Clean.step (clean : Clean answer process) (quiet : Quiet plugins answer call) :
    Clean answer (process.get_all_models plugins answer call).1 := by
  obtain ⟨after, list⟩ := clean.start call
  unfold Process.get_all_models
  generalize process.start answer call = result at after list
  obtain ⟨next, place⟩ := result
  simp only at after list ⊢
  rw [list, after.constant]
  split
  · exact after
  · rename_i listing done
    obtain ⟨made, first, rfl⟩ := map_eq_ok.mp done
    split
    · exact after
    · rename_i filled
      have filled := Bool.eq_false_iff.mpr filled
      refine ⟨?_, ?_, arena_write_back_unchanged quiet filled first⟩
      · intro base member
        obtain ⟨index, here⟩ := List.mem_iff_getElem?.mp member
        rw [List.getElem?_modify] at here
        obtain ⟨old, found, rfl⟩ := Option.map_eq_some_iff.mp here
        obtain rfl := after.same old (List.mem_of_getElem? found)
        split
        · exact write_back_unchanged quiet filled first
        · rfl
      · simpa using after.placed

section Residue

def plain_call (arena : Bool) (defaults : Fields) : Call where
  refresh := false
  served := none
  arena := ⟨arena, []⟩
  default_metadata := defaults
  table := ⟨[], List.nodup_nil⟩

def plain_model : BaseModel where
  ollama := false
  id := "gpt-4o"
  name := "gpt-4o"
  arena := false
  info := none
  rest := []

def suggestions : Fields := [("suggestion_prompts", .arr [])]

end Residue

end ModelList

end OpenWebui
