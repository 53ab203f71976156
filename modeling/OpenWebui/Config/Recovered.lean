import OpenWebui.Config.Fragments

/-! Repair of flattened dictionaries loses nothing, exactly where no dictionary is stored under the
key yet, or it holds the fragments already, and the fragments of connections are split at the end of
their names. -/

namespace OpenWebui.Config

open Json (atPath Leaf)

/-- The paths that a dictionary is flattened to: only names of connections have dots. -/
def Dotted (entry : String × List String) (path : List String) : Prop :=
  if entry.1 ∈ API_CONFIG_KEYS then
    ∃ connection field rest, path = connection :: field :: rest ∧ field ∈ API_CONFIG_FIELDS ∧
      ∀ part ∈ rest, '.' ∉ part.toList
  else path ≠ [] ∧ ∀ part ∈ path, '.' ∉ part.toList

/-- A value of the dictionary that was flattened, and its path. -/
structure Fragment (flat : String → Json) (entry : String × List String) (path : List String)
    (value : Json) : Prop where
  dotted : Dotted entry path
  stored : atPath path (flat entry.1) = some value
  leaf : Leaf value

/-- The row of a path is there, under the key or under an alias of it. -/
def Present (config : Dict String Json) (entry : String × List String) (path : List String)
    (value : Json) : Prop :=
  ∃ key_head ∈ prefixes entry, config.get? (rowKey key_head path) = some value

/-- Every row under a key or an alias is a fragment of what was flattened there. -/
def Flattened (flat : String → Json) (config : Dict String Json) : Prop :=
  ∀ entry ∈ DICT_CONFIG_KEY_ALIASES, ∀ key_head ∈ prefixes entry, ∀ key value,
    config.get? key = some value → Under key_head key →
      ∃ path, Fragment flat entry path value ∧ key = rowKey key_head path

def storedAt (config : Dict String Json) (entry : String × List String) (path : List String) :
    Option Json := (config.get? entry.1).bind (atPath path)

/-- The fragments are in their dictionaries, with what was there at other paths; their rows are
deleted, no other row is changed, and a second run changes nothing. -/
structure Recovered (isdigit : Char → Bool) (PERSISTENT_ENABLED : Bool) (flat : String → Json)
    (config after : Dict String Json) : Prop where
  held : ∀ entry ∈ DICT_CONFIG_KEY_ALIASES, ∀ path value, Fragment flat entry path value →
    Present config entry path value → storedAt after entry path = some value
  kept : ∀ entry ∈ DICT_CONFIG_KEY_ALIASES, ∀ path value, path ≠ [] →
    storedAt config entry path = some value →
      (∀ other fragment, Fragment flat entry other fragment → Present config entry other fragment →
        ¬ path <+: other ∧ ¬ other <+: path) →
      storedAt after entry path = some value
  deleted : ∀ entry ∈ DICT_CONFIG_KEY_ALIASES, ∀ key_head ∈ prefixes entry, ∀ key,
    Under key_head key → after.get? key = none
  unchanged : ∀ key, (∀ entry ∈ DICT_CONFIG_KEY_ALIASES,
      (∀ key_head ∈ prefixes entry, ¬ Under key_head key) ∧
        (key = entry.1 → ∀ path value, Fragment flat entry path value →
          ¬ Present config entry path value)) →
    after.get? key = config.get? key
  again : repair_flattened_dict_configs isdigit PERSISTENT_ENABLED after = after

/-- The fragment is split where the name of its connection ends. -/
def SplitsAtName (isdigit : Char → Bool) (entry : String × List String) (path : List String) : Prop :=
  entry.1 ∈ API_CONFIG_KEYS → ∀ connection rest, path = connection :: rest →
    _split_api_config_fragment isdigit (dotted path) = some (connection, rest)

/-- The fragment is split where no value but an object stands. -/
def SplitsSomewhere (isdigit : Char → Bool) (entry : String × List String) (fields : Fields)
    (path : List String) : Prop :=
  entry.1 ∈ API_CONFIG_KEYS → ∃ object_key field_path,
    _split_api_config_fragment isdigit (dotted path) = some (object_key, field_path) ∧
      ∀ value, fields.lookup object_key = some value → ¬ Leaf value

/-- When nothing is lost: config is persistent, and every fragment that is there is already in the
dictionary that is stored, or none is stored and its connection is recognised. -/
def Restorable (isdigit : Char → Bool) (PERSISTENT_ENABLED : Bool) (flat : String → Json)
    (config : Dict String Json) : Prop :=
  ∀ entry ∈ DICT_CONFIG_KEY_ALIASES, ∀ path value, Fragment flat entry path value →
    Present config entry path value → PERSISTENT_ENABLED = true ∧
      (∀ fields, config.get? entry.1 = some (.obj fields) →
        atPath path (.obj fields) = some value ∧ SplitsSomewhere isdigit entry fields path) ∧
      ((∀ fields, config.get? entry.1 ≠ some (.obj fields)) → SplitsAtName isdigit entry path)

section Keys

variable {isdigit : Char → Bool} {entry : String × List String} {config before : Dict String Json}

/-- What becomes of a key: the value that is stored, and the rows that were taken up. -/
structure Outcome (isdigit : Char → Bool) (before : Dict String Json) (entry : String × List String)
    (value : Option Json) (incorporated : List String) : Prop where
  built : ∃ rows : List (String × Json),
    (∀ row ∈ rows, ∀ fragment, fragmentOf (prefixes entry) row.1 = some fragment →
      before.get? row.1 = some row.2) ∧
    (∀ key_head ∈ prefixes entry, ∀ key value, Under key_head key →
      before.get? key = some value → (key, value) ∈ rows) ∧
    incorporated = (rows.foldl (mergeRow isdigit entry)
      (Json.fieldsOf (before.get? entry.1), [])).2 ∧
    value = if incorporated = [] then before.get? entry.1
      else flushed (before.get? entry.1) (rows.foldl (mergeRow isdigit entry)
        (Json.fieldsOf (before.get? entry.1), [])).1

theorem flushed_obj (fields repaired : Fields) :
    flushed (some (.obj fields)) repaired = some (.obj fields) := by
  simp [flushed]

theorem flushed_other {existing : Option Json} (other : ∀ fields, existing ≠ some (.obj fields))
    (repaired : Fields) : flushed existing repaired = some (.obj repaired) := by
  cases existing with
  | none => rfl
  | some value =>
    cases value with
    | obj fields => exact absurd rfl (other fields)
    | _ => simp [flushed, Json.equal, Json.loose]

theorem flushed_isSome (existing : Option Json) (repaired : Fields) :
    ∃ value, flushed existing repaired = some value := by
  by_cases dict : ∃ fields, existing = some (.obj fields)
  · obtain ⟨fields, rfl⟩ := dict
    exact ⟨_, flushed_obj fields repaired⟩
  · exact ⟨_, flushed_other (not_exists.mp dict) repaired⟩

theorem repairKey_outcome (known : entry ∈ DICT_CONFIG_KEY_ALIASES)
    (same : config.get? entry.1 = before.get? entry.1)
    (rows_same : ∀ key_head ∈ prefixes entry, ∀ key, Under key_head key →
      config.get? key = before.get? key) :
    Outcome isdigit before entry ((repairKey isdigit config entry).1.get? entry.1)
      (repairKey isdigit config entry).2 ∧
        ∀ key, key ≠ entry.1 → (repairKey isdigit config entry).1.get? key = config.get? key := by
  have built : ∀ incorporated, incorporated = (((prefixes entry).flatMap (selectRows config)).foldl
      (mergeRow isdigit entry) (Json.fieldsOf (before.get? entry.1), [])).2 →
      ∀ value, (value = if incorporated = [] then before.get? entry.1
        else flushed (before.get? entry.1) (((prefixes entry).flatMap (selectRows config)).foldl
          (mergeRow isdigit entry) (Json.fieldsOf (before.get? entry.1), [])).1) →
        Outcome isdigit before entry value incorporated := by
    intro incorporated taken value stored
    refine ⟨(prefixes entry).flatMap (selectRows config), ?_, ?_, taken, stored⟩
    · intro row member fragment found
      obtain ⟨key_head, listed, split⟩ := fragmentOf_under found
      rw [← rows_same key_head listed row.1 ⟨fragment, split.symm⟩]
      exact get?_of_mem_rows member
    · intro key_head listed key value under found
      rw [← rows_same key_head listed key under] at found
      exact mem_rows_of_under known listed under found
  unfold repairKey
  rw [same]
  dsimp only
  by_cases nothing : (((prefixes entry).flatMap (selectRows config)).foldl (mergeRow isdigit entry)
      (Json.fieldsOf (before.get? entry.1), [])).2 = []
  · rw [if_pos nothing]
    refine ⟨built [] nothing.symm _ ?_, fun _ _ => rfl⟩
    rw [if_pos rfl]
    exact same
  · rw [if_neg nothing]
    obtain ⟨value, written⟩ := flushed_isSome (before.get? entry.1)
      (((prefixes entry).flatMap (selectRows config)).foldl (mergeRow isdigit entry)
        (Json.fieldsOf (before.get? entry.1), [])).1
    rw [written]
    dsimp only
    refine ⟨built _ rfl _ ?_, ?_⟩
    · rw [if_neg nothing, Dict.get?_set, if_pos rfl, written]
    · intro key other
      rw [Dict.get?_set, if_neg (Ne.symm other)]

theorem repairKey_eq_self (none : ∀ key_head ∈ prefixes entry, ∀ key value,
    config.get? key = some value → ¬ Under key_head key) :
    repairKey isdigit config entry = (config, []) := by
  have idle : ∀ rows : List (String × Json),
      (∀ row ∈ rows, fragmentOf (prefixes entry) row.1 = Option.none) → ∀ state,
        rows.foldl (mergeRow isdigit entry) state = state := by
    intro rows elsewhere state
    induction rows with
    | nil => rfl
    | cons row rest ih =>
      have here : mergeRow isdigit entry state row = state := by
        rw [mergeRow, elsewhere row List.mem_cons_self]
      rw [List.foldl_cons, here]
      exact ih (fun other member => elsewhere other (List.mem_cons_of_mem _ member))
  have quiet := idle ((prefixes entry).flatMap (selectRows config)) (by
    intro row member
    apply fragmentOf_eq_none
    intro key_head listed
    exact none key_head listed row.1 row.2 (get?_of_mem_rows member))
  rw [repairKey, quiet]
  rfl

theorem Outcome.under {value : Option Json} {incorporated : List String}
    (outcome : Outcome isdigit before entry value incorporated) {key : String}
    (taken : key ∈ incorporated) : ∃ key_head ∈ prefixes entry, Under key_head key := by
  obtain ⟨rows, _, _, rfl, _⟩ := outcome.built
  rcases mem_incorporated.mp taken with impossible | ⟨_, fragment, _, found, _⟩
  · cases impossible
  · obtain ⟨key_head, listed, split⟩ := fragmentOf_under found
    exact ⟨key_head, listed, fragment, split.symm⟩

theorem Outcome.mem_iff {value : Option Json} {incorporated : List String}
    (outcome : Outcome isdigit before entry value incorporated) {key_head key : String}
    {fragment : Json} (listed : key_head ∈ prefixes entry) (under : Under key_head key)
    (found : before.get? key = some fragment) :
    key ∈ incorporated ↔ Taken isdigit entry (Json.fieldsOf (before.get? entry.1)) key := by
  obtain ⟨rows, _, all, rfl, _⟩ := outcome.built
  rw [mem_incorporated]
  constructor
  · rintro (impossible | ⟨_, taken⟩)
    · cases impossible
    · exact taken
  · intro taken
    exact Or.inr ⟨List.mem_map.mpr ⟨_, all key_head listed key fragment under found, rfl⟩, taken⟩

end Keys

section Loop

variable {isdigit : Char → Bool} {before : Dict String Json}

theorem entry_unique {entry other : String × List String} (known : entry ∈ DICT_CONFIG_KEY_ALIASES)
    (known_other : other ∈ DICT_CONFIG_KEY_ALIASES) (same : entry.1 = other.1) : entry = other :=
  (names_apart entry known other known_other entry.1 List.mem_cons_self other.1 List.mem_cons_self
    (by rw [same])).1

theorem keys_distinct : (DICT_CONFIG_KEY_ALIASES.map Prod.fst).Nodup := by decide

theorem repairKeys_outcome {entries : List (String × List String)}
    (known : ∀ entry ∈ entries, entry ∈ DICT_CONFIG_KEY_ALIASES)
    (distinct : (entries.map Prod.fst).Nodup) {state : Dict String Json × List String}
    (same : ∀ key, (∀ entry ∈ DICT_CONFIG_KEY_ALIASES, entry ∉ entries → key ≠ entry.1) →
      state.1.get? key = before.get? key) :
    ∃ incorporated : String → List String,
      (∀ entry ∈ entries, Outcome isdigit before entry
        ((repairKeys isdigit entries state).1.get? entry.1) (incorporated entry.1)) ∧
      (∀ key, (∀ entry ∈ entries, key ≠ entry.1) →
        (repairKeys isdigit entries state).1.get? key = state.1.get? key) ∧
      ∀ key, key ∈ (repairKeys isdigit entries state).2 ↔
        key ∈ state.2 ∨ ∃ entry ∈ entries, key ∈ incorporated entry.1 := by
  induction entries generalizing state with
  | nil =>
    refine ⟨fun _ => [], ?_, fun _ _ => rfl, ?_⟩
    · rintro entry ⟨⟩
    · simp [repairKeys]
  | cons entry rest ih =>
    have here := known entry List.mem_cons_self
    have later : ∀ other ∈ rest, other ∈ DICT_CONFIG_KEY_ALIASES :=
      fun other member => known other (List.mem_cons_of_mem _ member)
    rw [List.map_cons, List.nodup_cons] at distinct
    have apart : ∀ other ∈ rest, entry.1 ≠ other.1 := by
      intro other member equal
      exact distinct.1 (equal ▸ List.mem_map.mpr ⟨other, member, rfl⟩)
    obtain ⟨outcome, frame⟩ := @repairKey_outcome isdigit entry state.1 before here
      (by
        apply same
        intro other among unlisted equal
        rw [← entry_unique here among equal] at unlisted
        exact unlisted List.mem_cons_self)
      (by
        intro key_head listed key under
        apply same
        rintro other among _ rfl
        exact key_not_under other among entry here key_head listed under)
    obtain ⟨incorporated, outcomes, frames, orphans⟩ := @ih later distinct.2
      ((repairKey isdigit state.1 entry).1, state.2 ++ (repairKey isdigit state.1 entry).2) (by
        intro key elsewhere
        have different : key ≠ entry.1 := by
          refine elsewhere entry here ?_
          intro member
          exact apart entry member rfl
        rw [frame key different]
        apply same
        intro other among unlisted
        exact elsewhere other among (fun member => unlisted (List.mem_cons_of_mem _ member)))
    refine ⟨fun key => if key = entry.1 then (repairKey isdigit state.1 entry).2 else incorporated key,
      ?_, ?_, ?_⟩
    · intro other member
      rcases List.mem_cons.mp member with rfl | remains
      · dsimp only
        rw [if_pos rfl]
        have stays := frames other.1 apart
        rw [← stays] at outcome
        exact outcome
      · dsimp only
        rw [if_neg (Ne.symm (apart other remains))]
        exact outcomes other remains
    · intro key elsewhere
      refine (frames key (fun other member => elsewhere other (List.mem_cons_of_mem _ member))).trans ?_
      exact frame key (elsewhere entry List.mem_cons_self)
    · intro key
      refine (orphans key).trans ?_
      rw [List.mem_append, or_assoc]
      refine or_congr_right ?_
      constructor
      · rintro (first | ⟨other, member, taken⟩)
        · refine ⟨entry, List.mem_cons_self, ?_⟩
          dsimp only
          rw [if_pos rfl]
          exact first
        · refine ⟨other, List.mem_cons_of_mem _ member, ?_⟩
          dsimp only
          rw [if_neg (Ne.symm (apart other member))]
          exact taken
      · rintro ⟨other, member, taken⟩
        dsimp only at taken
        rcases List.mem_cons.mp member with rfl | remains
        · rw [if_pos rfl] at taken
          exact Or.inl taken
        · rw [if_neg (Ne.symm (apart other remains))] at taken
          exact Or.inr ⟨other, remains, taken⟩

theorem repair_eq (config : Dict String Json) :
    repair_flattened_dict_configs isdigit true config =
      (repairKeys isdigit DICT_CONFIG_KEY_ALIASES (config, [])).2.foldl Dict.erase
        (repairKeys isdigit DICT_CONFIG_KEY_ALIASES (config, [])).1 := by
  rw [repair_flattened_dict_configs, if_pos rfl]

theorem repair_outcome (config : Dict String Json) : ∃ incorporated : String → List String,
    (∀ entry ∈ DICT_CONFIG_KEY_ALIASES, Outcome isdigit config entry
      ((repair_flattened_dict_configs isdigit true config).get? entry.1) (incorporated entry.1)) ∧
    ∀ key, (∀ entry ∈ DICT_CONFIG_KEY_ALIASES, key ≠ entry.1) →
      ((∃ entry ∈ DICT_CONFIG_KEY_ALIASES, key ∈ incorporated entry.1) →
        (repair_flattened_dict_configs isdigit true config).get? key = none) ∧
      ((∀ entry ∈ DICT_CONFIG_KEY_ALIASES, key ∉ incorporated entry.1) →
        (repair_flattened_dict_configs isdigit true config).get? key = config.get? key) := by
  obtain ⟨incorporated, outcomes, frames, orphans⟩ := @repairKeys_outcome isdigit config
    DICT_CONFIG_KEY_ALIASES (fun _ member => member) keys_distinct (config, []) (fun _ _ => rfl)
  simp only [List.not_mem_nil, false_or] at orphans
  refine ⟨incorporated, ?_, ?_⟩
  · intro entry among
    have stays : entry.1 ∉ (repairKeys isdigit DICT_CONFIG_KEY_ALIASES (config, [])).2 := by
      rw [orphans]
      rintro ⟨other, known, taken⟩
      obtain ⟨key_head, listed, under⟩ := (outcomes other known).under taken
      exact key_not_under entry among other known key_head listed under
    rw [repair_eq, Dict.get?_foldl_erase, if_neg stays]
    exact outcomes entry among
  · intro key elsewhere
    rw [repair_eq, Dict.get?_foldl_erase]
    constructor
    · intro taken
      rw [if_pos ((orphans key).mpr taken)]
    · intro none
      rw [if_neg, frames key elsewhere]
      rw [orphans]
      rintro ⟨entry, among, taken⟩
      exact none entry among taken

theorem repair_eq_self {PERSISTENT_ENABLED : Bool} {config : Dict String Json}
    (none : ∀ entry ∈ DICT_CONFIG_KEY_ALIASES, ∀ key_head ∈ prefixes entry, ∀ key,
      Under key_head key → config.get? key = none) :
    repair_flattened_dict_configs isdigit PERSISTENT_ENABLED config = config := by
  cases PERSISTENT_ENABLED with
  | false => rfl
  | true =>
    have idle : ∀ entries : List (String × List String),
        (∀ entry ∈ entries, entry ∈ DICT_CONFIG_KEY_ALIASES) →
          repairKeys isdigit entries (config, []) = (config, []) := by
      intro entries known
      induction entries with
      | nil => rfl
      | cons entry rest ih =>
        have quiet : repairKey isdigit config entry = (config, []) := by
          apply repairKey_eq_self
          intro key_head listed key value found under
          rw [none entry (known entry List.mem_cons_self) key_head listed key under] at found
          cases found
        have step : repairKeys isdigit (entry :: rest) (config, []) =
            repairKeys isdigit rest (config, []) := by
          unfold repairKeys
          rw [List.foldl_cons, quiet]
          rfl
        rw [step]
        exact ih (fun other member => known other (List.mem_cons_of_mem _ member))
    rw [repair_eq, idle _ (fun _ member => member)]
    rfl

end Loop

section Slots

variable {isdigit : Char → Bool} {entry : String × List String} {path : List String}

theorem Dotted.ne_nil (dotted : Dotted entry path) : path ≠ [] := by
  unfold Dotted at dotted
  split at dotted
  · obtain ⟨connection, field, rest, rfl, _⟩ := dotted
    exact List.cons_ne_nil _ _
  · exact dotted.1

theorem slot_iff_splits (is_dotted : Dotted entry path) :
    slotOf isdigit entry (dotted path) = some path ↔ SplitsAtName isdigit entry path := by
  unfold Dotted at is_dotted
  unfold slotOf SplitsAtName
  split at is_dotted
  · rename_i api
    obtain ⟨connection, field, rest, rfl, _⟩ := is_dotted
    rw [if_pos api, Option.map_eq_some_iff]
    constructor
    · rintro ⟨⟨object_key, field_path⟩, split, same⟩ _ name later equal
      obtain ⟨same_name, same_path⟩ := List.cons.inj (same.trans equal)
      rw [split]
      exact congrArg some (Prod.ext same_name same_path)
    · intro splits
      exact ⟨(connection, field :: rest), splits api connection (field :: rest) rfl, rfl⟩
  · rename_i plain
    rw [if_neg plain, parts_dotted is_dotted.1 is_dotted.2]
    exact iff_of_true rfl (fun api => absurd api plain)

theorem taken_iff_splits (known : entry ∈ DICT_CONFIG_KEY_ALIASES) {key_head : String}
    (listed : key_head ∈ prefixes entry) (fields : Fields) :
    Taken isdigit entry fields (rowKey key_head path) ↔
      SplitsSomewhere isdigit entry fields path := by
  unfold Taken SplitsSomewhere
  rw [fragmentOf_rowKey known listed]
  simp only [Option.some.injEq, exists_and_left, exists_eq_left']
  unfold slotOf Blocked
  by_cases api : entry.1 ∈ API_CONFIG_KEYS
  · simp only [api, if_true, true_and, forall_const]
    constructor
    · rintro ⟨slot, taken, opens⟩
      obtain ⟨⟨object_key, field_path⟩, split, rfl⟩ := Option.map_eq_some_iff.mp taken
      refine ⟨object_key, field_path, split, ?_⟩
      intro value held leaf
      exact opens ⟨object_key, value, rfl, held, leaf⟩
    · rintro ⟨object_key, field_path, split, opens⟩
      refine ⟨object_key :: field_path, by rw [split]; rfl, ?_⟩
      rintro ⟨key, value, head, held, leaf⟩
      obtain rfl := Option.some.inj head
      exact opens value held leaf
  · simp [api]

end Slots

section Equivalence

variable {isdigit : Char → Bool} {PERSISTENT_ENABLED : Bool} {flat : String → Json}
  {config : Dict String Json}

theorem fragments_apart {entry : String × List String} {path other : List String}
    {value found : Json} (here : Fragment flat entry path value)
    (there : Fragment flat entry other found) :
    (other = path ∧ found = value) ∨ (¬ path <+: other ∧ ¬ other <+: path) := by
  by_cases same : other = path
  · subst same
    exact Or.inl ⟨rfl, Option.some.inj (there.stored.symm.trans here.stored)⟩
  · refine Or.inr ⟨?_, ?_⟩
    · intro begins
      exact same (Json.eq_of_starts here.leaf here.stored there.stored begins).symm
    · intro begins
      exact same (Json.eq_of_starts there.leaf there.stored here.stored begins)

theorem Flattened.present (flattened : Flattened flat config) {entry : String × List String}
    (known : entry ∈ DICT_CONFIG_KEY_ALIASES) {key_head key : String} {value : Json}
    (listed : key_head ∈ prefixes entry) (under : Under key_head key)
    (found : config.get? key = some value) :
    ∃ path, Fragment flat entry path value ∧ Present config entry path value ∧
      key = rowKey key_head path := by
  obtain ⟨path, fragment, rfl⟩ := flattened entry known key_head listed key value found under
  exact ⟨path, fragment, ⟨key_head, listed, found⟩, rfl⟩

theorem fieldsOf_other {stored : Option Json} (other : ∀ fields, stored ≠ some (.obj fields)) :
    Json.fieldsOf stored = [] := by
  cases stored with
  | none => rfl
  | some value =>
    cases value with
    | obj fields => exact absurd rfl (other fields)
    | _ => rfl

theorem held_of_other (flattened : Flattened flat config)
    (restorable : Restorable isdigit PERSISTENT_ENABLED flat config)
    {entry : String × List String} (known : entry ∈ DICT_CONFIG_KEY_ALIASES)
    {stored : Option Json} {incorporated : List String}
    (outcome : Outcome isdigit config entry stored incorporated)
    (other : ∀ fields, config.get? entry.1 ≠ some (.obj fields)) {path : List String} {value : Json}
    (fragment : Fragment flat entry path value) (present : Present config entry path value) :
    stored.bind (atPath path) = some value := by
  have nothing := fieldsOf_other other
  have slots : ∀ {path value}, Fragment flat entry path value → Present config entry path value →
      slotOf isdigit entry (dotted path) = some path := by
    intro path value fragment present
    have conditions := restorable entry known path value fragment present
    exact (slot_iff_splits fragment.dotted).mpr (conditions.2.2 other)
  have opens : ∀ path, ¬ Blocked entry [] path := by
    rintro path ⟨_, key, value, _, held, _⟩
    cases held
  obtain ⟨key_head, listed, found⟩ := present
  obtain ⟨rows, inside, all, taken, written⟩ := outcome.built
  rw [nothing] at taken written
  have member := all key_head listed _ value (under_rowKey key_head path) found
  have row_fragment := fragmentOf_rowKey known listed path
  have slot := slots fragment ⟨key_head, listed, found⟩
  have incorporates : rowKey key_head path ∈ incorporated := by
    rw [taken, mem_incorporated]
    exact Or.inr ⟨List.mem_map.mpr ⟨_, member, rfl⟩, _, path, row_fragment, slot, opens path⟩
  rw [written, if_neg (List.ne_nil_of_mem incorporates), flushed_other other, Option.bind_some]
  refine atPath_of_taken ?_ member row_fragment slot (opens path)
  intro row among other_fragment other_slot found_other slot_other
  obtain ⟨other_head, listed_other, split⟩ := fragmentOf_under found_other
  have there := inside row among other_fragment found_other
  obtain ⟨other_path, fragment_there, present_there, same⟩ := flattened.present known listed_other
    ⟨other_fragment, split.symm⟩ there
  rw [same, fragmentOf_rowKey known listed_other] at found_other
  obtain rfl := Option.some.inj found_other
  obtain rfl := Option.some.inj ((slots fragment_there present_there).symm.trans slot_other)
  exact fragments_apart fragment fragment_there

theorem stored_of_obj {entry : String × List String} {stored : Option Json}
    {incorporated : List String} (outcome : Outcome isdigit config entry stored incorporated)
    {fields : Fields} (held : config.get? entry.1 = some (.obj fields)) :
    stored = some (.obj fields) := by
  obtain ⟨rows, _, _, _, written⟩ := outcome.built
  rw [written, held, flushed_obj]
  exact ite_self _

theorem stored_of_nothing {entry : String × List String} {stored : Option Json}
    {incorporated : List String} (outcome : Outcome isdigit config entry stored incorporated)
    (none : incorporated = []) : stored = config.get? entry.1 := by
  obtain ⟨rows, _, _, _, written⟩ := outcome.built
  rw [written, if_pos none]

theorem taken_of_restorable (restorable : Restorable isdigit PERSISTENT_ENABLED flat config)
    {entry : String × List String} (known : entry ∈ DICT_CONFIG_KEY_ALIASES) {key_head : String}
    (listed : key_head ∈ prefixes entry) {path : List String} {value : Json}
    (fragment : Fragment flat entry path value)
    (found : config.get? (rowKey key_head path) = some value) :
    Taken isdigit entry (Json.fieldsOf (config.get? entry.1)) (rowKey key_head path) := by
  obtain ⟨_, dict, other⟩ := restorable entry known path value fragment ⟨key_head, listed, found⟩
  by_cases stored : ∃ fields, config.get? entry.1 = some (.obj fields)
  · obtain ⟨fields, held⟩ := stored
    rw [held]
    exact (taken_iff_splits known listed fields).mpr (dict fields held).2
  · have slot := (slot_iff_splits fragment.dotted).mpr (other (not_exists.mp stored))
    refine ⟨dotted path, path, fragmentOf_rowKey known listed path, slot, ?_⟩
    rw [fieldsOf_other (not_exists.mp stored)]
    rintro ⟨_, key, value, _, held, _⟩
    cases held

theorem recovered_of_restorable (flattened : Flattened flat config)
    (restorable : Restorable isdigit true flat config) :
    Recovered isdigit true flat config (repair_flattened_dict_configs isdigit true config) := by
  obtain ⟨incorporated, outcomes, rows⟩ := @repair_outcome isdigit config
  have deleted : ∀ entry ∈ DICT_CONFIG_KEY_ALIASES, ∀ key_head ∈ prefixes entry, ∀ key,
      Under key_head key → (repair_flattened_dict_configs isdigit true config).get? key = none := by
    intro entry known key_head listed key under
    have no_key : ∀ other ∈ DICT_CONFIG_KEY_ALIASES, key ≠ other.1 := by
      rintro other among rfl
      exact key_not_under other among entry known key_head listed under
    cases found : config.get? key with
    | none =>
      by_cases taken : ∃ other ∈ DICT_CONFIG_KEY_ALIASES, key ∈ incorporated other.1
      · exact (rows key no_key).1 taken
      · rw [(rows key no_key).2 (fun other among member => taken ⟨other, among, member⟩)]
        exact found
    | some value =>
      obtain ⟨path, fragment, _, rfl⟩ := flattened.present known listed under found
      apply (rows _ no_key).1
      refine ⟨entry, known, ((outcomes entry known).mem_iff listed under found).mpr ?_⟩
      exact taken_of_restorable restorable known listed fragment found
  constructor
  · intro entry known path value fragment present
    by_cases stored : ∃ fields, config.get? entry.1 = some (.obj fields)
    · obtain ⟨fields, held⟩ := stored
      rw [storedAt, stored_of_obj (outcomes entry known) held, Option.bind_some]
      exact ((restorable entry known path value fragment present).2.1 fields held).1
    · exact held_of_other flattened restorable known (outcomes entry known) (not_exists.mp stored)
        fragment present
  · intro entry known path value some_path there _
    by_cases stored : ∃ fields, config.get? entry.1 = some (.obj fields)
    · obtain ⟨fields, held⟩ := stored
      rw [storedAt, stored_of_obj (outcomes entry known) held, ← held]
      exact there
    · -- Nothing stands at a path below a value that is no dictionary.
      obtain ⟨held, found, below⟩ := Option.bind_eq_some_iff.mp there
      have leaf : Leaf held := by
        rintro fields rfl
        exact stored ⟨fields, found⟩
      exact absurd (Json.atPath_leaf leaf below) some_path
  · exact deleted
  · intro key apart
    by_cases is_key : ∃ entry ∈ DICT_CONFIG_KEY_ALIASES, key = entry.1
    · obtain ⟨entry, known, rfl⟩ := is_key
      apply stored_of_nothing (outcomes entry known)
      rw [List.eq_nil_iff_forall_not_mem]
      intro other taken
      obtain ⟨all_rows, inside, _, same, _⟩ := (outcomes entry known).built
      rw [same, mem_incorporated] at taken
      rcases taken with impossible | ⟨member, fragment, _, found, _⟩
      · cases impossible
      · obtain ⟨row, among, rfl⟩ := List.mem_map.mp member
        obtain ⟨key_head, listed, split⟩ := fragmentOf_under found
        obtain ⟨path, here, present, _⟩ := flattened.present known listed ⟨fragment, split.symm⟩
          (inside row among fragment found)
        exact (apart entry known).2 rfl path row.2 here present
    · apply (rows key (fun entry known same => is_key ⟨entry, known, same⟩)).2
      intro entry known taken
      obtain ⟨key_head, listed, under⟩ := (outcomes entry known).under taken
      exact (apart entry known).1 key_head listed under
  · exact repair_eq_self deleted

theorem restorable_of_recovered (flattened : Flattened flat config)
    (recovered : Recovered isdigit PERSISTENT_ENABLED flat config
      (repair_flattened_dict_configs isdigit PERSISTENT_ENABLED config)) :
    Restorable isdigit PERSISTENT_ENABLED flat config := by
  intro entry known path value fragment present
  have held := recovered.held entry known path value fragment present
  obtain ⟨key_head, listed, found⟩ := present
  have under := under_rowKey key_head path
  have gone := recovered.deleted entry known key_head listed _ under
  cases PERSISTENT_ENABLED with
  | false =>
    rw [repair_flattened_dict_configs, if_neg (by simp), found] at gone
    cases gone
  | true =>
    obtain ⟨incorporated, outcomes, rows⟩ := @repair_outcome isdigit config
    have no_key : ∀ other ∈ DICT_CONFIG_KEY_ALIASES, rowKey key_head path ≠ other.1 := by
      intro other among same
      exact key_not_under other among entry known key_head listed (same ▸ under)
    -- The row is deleted, so it was taken up, and for no other key.
    have taken : rowKey key_head path ∈ incorporated entry.1 := by
      by_contra left
      have stays : ∀ other ∈ DICT_CONFIG_KEY_ALIASES,
          rowKey key_head path ∉ incorporated other.1 := by
        intro other among member
        obtain ⟨other_head, listed_other, under_other⟩ := (outcomes other among).under member
        obtain ⟨rfl, _⟩ := under_unique known among listed listed_other under under_other
        exact left member
      rw [(rows _ no_key).2 stays, found] at gone
      cases gone
    have slot := ((outcomes entry known).mem_iff listed under found).mp taken
    refine ⟨rfl, ?_, ?_⟩
    · intro fields stored
      rw [storedAt, stored_of_obj (outcomes entry known) stored, Option.bind_some] at held
      rw [stored] at slot
      exact ⟨held, (taken_iff_splits known listed fields).mp slot⟩
    · intro other
      rw [← slot_iff_splits fragment.dotted]
      obtain ⟨all_rows, inside, _, _, written⟩ := (outcomes entry known).built
      rw [if_neg (List.ne_nil_of_mem taken), flushed_other other, fieldsOf_other other] at written
      rw [storedAt, written, Option.bind_some] at held
      have leaves : ∀ row ∈ all_rows, ∀ text,
          fragmentOf (prefixes entry) row.1 = some text → Leaf row.2 := by
        intro row member text there
        obtain ⟨other_head, listed_other, split⟩ := fragmentOf_under there
        obtain ⟨_, here, _⟩ := flattened.present known listed_other ⟨text, split.symm⟩
          (inside row member text there)
        exact here.leaf
      rcases slot_of_atPath leaves fragment.leaf held with before | ⟨row, _, text, _, put⟩
      · cases path with
        | nil => exact absurd rfl fragment.dotted.ne_nil
        | cons part rest => cases before
      · rw [dotted_slot put]
        exact put

end Equivalence

def permissions : String × List String := ("user.permissions", ["USER_PERMISSIONS"])

def sharing : String → Json := fun _ => .obj [("chat", .obj [("share", .bool false)])]

def sharingRow : String × Json := ("user.permissions.chat.share", .bool false)

theorem sharingRow_under : ∀ entry ∈ DICT_CONFIG_KEY_ALIASES, ∀ key_head ∈ prefixes entry,
    Under key_head sharingRow.1 → entry = permissions ∧ key_head = "user.permissions" := by
  decide

theorem sharingRow_key : sharingRow.1 = rowKey "user.permissions" ["chat", "share"] := by
  decide

theorem sharing_fragment : Fragment sharing permissions ["chat", "share"] (.bool false) := by
  refine ⟨?_, rfl, ?_⟩
  · rw [Dotted, if_neg (by decide)]
    refine ⟨List.cons_ne_nil _ _, ?_⟩
    decide
  · rintro fields ⟨⟩

theorem sharing_flattened {config : Dict String Json}
    (rows : ∀ key value, config.get? key = some value →
      key = permissions.1 ∨ (key, value) = sharingRow) : Flattened sharing config := by
  intro entry known key_head listed key value found under
  rcases rows key value found with rfl | same
  · exact absurd under (key_not_under permissions (by decide) entry known key_head listed)
  · obtain ⟨rfl, rfl⟩ := Prod.mk.inj same
    obtain ⟨rfl, rfl⟩ := sharingRow_under entry known key_head listed under
    exact ⟨["chat", "share"], sharing_fragment, sharingRow_key⟩

def flattenedOnly : Dict String Json := Dict.empty.set sharingRow.1 sharingRow.2

theorem flattenedOnly_row {key : String} {value : Json}
    (found : flattenedOnly.get? key = some value) : (key, value) = sharingRow := by
  rw [flattenedOnly, Dict.get?_set] at found
  split at found
  · rename_i same
    subst same
    obtain rfl := Option.some.inj found
    rfl
  · cases found

def storedBefore : Dict String Json :=
  flattenedOnly.set permissions.1 (.obj [("chat", .obj [("delete", .bool true)])])

end OpenWebui.Config
