import OpenWebui.Base.Json
import OpenWebui.Base.Like

/-! `Config`: the rows of the configuration, the defaults beside them, and the readers of both. -/

namespace OpenWebui.Config

structure Flags where
  PERSISTENT_ENABLED : Bool
  OAUTH_PERSISTENT_ENABLED : Bool

structure Store where
  rows : Dict String Json
  DEFAULTS : Dict String Json

/-- `text.startswith(start)`. -/
def startswith (text start : String) : Bool := start.toList.isPrefixOf text.toList

theorem startswith_iff {text start : String} :
    startswith text start = true ↔ start.toList <+: text.toList :=
  List.isPrefixOf_iff_prefix

section

variable (flags : Flags) (store : Store)

def persistent_enabled_for (key : String) : Bool :=
  if !flags.PERSISTENT_ENABLED then false
  else if startswith key "oauth." && !flags.OAUTH_PERSISTENT_ENABLED then false
  else true

def default_value (key : String) (default : Json) : Json := (store.DEFAULTS.get? key).getD default

def get (key : String) (default : Json) : Json :=
  if !persistent_enabled_for flags key then default_value store key default
  else
    match store.rows.get? key with
    | some value => value
    | none => default_value store key default

def get_many (keys : List String) : Dict String Json :=
  let disabled_values := Dict.ofEntries ((keys.filter (fun key =>
    !persistent_enabled_for flags key && (store.DEFAULTS.get? key).isSome)).map (fun key =>
      (key, default_value store key .null)))
  let enabled_keys := keys.filter (persistent_enabled_for flags)
  if enabled_keys.isEmpty then disabled_values
  else
    let values := store.rows.filterKeys (fun key => decide (key ∈ enabled_keys))
    Dict.ofEntries ((keys.filter (fun key => (values.get? key).isSome ||
      (store.DEFAULTS.get? key).isSome || (disabled_values.get? key).isSome)).map (fun key =>
        (key, (values.get? key).getD (default_value store key .null))))

def get_namespace (name : String) : Dict String Json :=
  let default_values := store.DEFAULTS.filterKeys (fun key =>
    startswith key (name ++ ".") && !persistent_enabled_for flags key)
  if !flags.PERSISTENT_ENABLED then default_values
  else (store.rows.filterKeys (fun key => Like.like (name ++ ".%").toList key.toList)).merge
    default_values

def get_all : Dict String Json :=
  if !flags.PERSISTENT_ENABLED then store.DEFAULTS
  else if !flags.OAUTH_PERSISTENT_ENABLED then
    store.rows.merge (store.DEFAULTS.filterKeys (fun key => startswith key "oauth."))
  else store.rows

/-- Every reader says the same of a key: its value, or that there is none. A namespace is asked of
the keys under it, and where its pattern selects another key, what is said of that one counts too. -/
def Agree (key : String) : Prop :=
  ∃ report : Option Json,
    (∀ default, get flags store key default = report.getD default) ∧
    (∀ keys, key ∈ keys → (get_many flags store keys).get? key = report) ∧
    (∀ name, startswith key (name ++ ".") = true → (get_namespace flags store name).get? key = report) ∧
    (∀ name value, (get_namespace flags store name).get? key = some value → report = some value) ∧
    (get_all flags store).get? key = report

end

section

variable {flags : Flags} {store : Store}

theorem get?_listed {keys : List String} {keep : String → Bool} {value : String → Json} {key : String}
    (asked : key ∈ keys) :
    (Dict.ofEntries ((keys.filter keep).map (fun key => (key, value key)))).get? key =
      if keep key then some (value key) else none := by
  rw [Dict.get?_ofEntries]
  induction keys with
  | nil => cases asked
  | cons first rest ih =>
    by_cases same : first = key
    · subst same
      cases kept : keep first with
      | true => rw [List.filter_cons_of_pos kept, List.map_cons, Assoc.lookup_cons_self_or]; simp
      | false =>
        rw [if_neg Bool.false_ne_true, Assoc.lookup_eq_none]
        intro listed
        obtain ⟨entry, member, rfl⟩ := List.mem_map.mp listed
        obtain ⟨other, kept_other, rfl⟩ := List.mem_map.mp member
        rw [(List.mem_filter.mp kept_other).2] at kept
        cases kept
    · have later : key ∈ rest := (List.mem_cons.mp asked).resolve_left (Ne.symm same)
      rw [← ih later]
      cases kept : keep first with
      | true =>
        rw [List.filter_cons_of_pos kept, List.map_cons, Assoc.lookup_cons_self_or]
        exact if_neg same
      | false => rw [List.filter_cons_of_neg (by simp [kept])]

theorem enabled_flag {key : String} (enabled : persistent_enabled_for flags key = true) :
    flags.PERSISTENT_ENABLED = true := by
  unfold persistent_enabled_for at enabled
  split at enabled
  · cases enabled
  · rename_i on
    simpa using on

theorem disabled_iff {key : String} : persistent_enabled_for flags key = false ↔
    flags.PERSISTENT_ENABLED = false ∨
      startswith key "oauth." = true ∧ flags.OAUTH_PERSISTENT_ENABLED = false := by
  unfold persistent_enabled_for
  cases flags.PERSISTENT_ENABLED <;> cases flags.OAUTH_PERSISTENT_ENABLED <;>
    cases startswith key "oauth." <;> simp

/-- What `get` and `get_many` say of a key. -/
def reportOf (flags : Flags) (store : Store) (key : String) : Option Json :=
  if persistent_enabled_for flags key then (store.rows.get? key).or (store.DEFAULTS.get? key)
  else store.DEFAULTS.get? key

theorem get_eq (key : String) (default : Json) :
    get flags store key default = (reportOf flags store key).getD default := by
  unfold get reportOf default_value
  cases persistent_enabled_for flags key with
  | false => rfl
  | true =>
    cases store.rows.get? key with
    | none => rfl
    | some value => rfl

theorem get_many_eq {keys : List String} {key : String} (asked : key ∈ keys) :
    (get_many flags store keys).get? key = reportOf flags store key := by
  unfold get_many reportOf default_value
  dsimp only
  split
  · rename_i none_enabled
    have disabled : persistent_enabled_for flags key = false := by
      rw [List.isEmpty_iff, List.filter_eq_nil_iff] at none_enabled
      simpa using none_enabled key asked
    rw [get?_listed asked, disabled]
    cases store.DEFAULTS.get? key <;> rfl
  · rw [get?_listed asked, get?_listed asked, Dict.get?_filterKeys]
    cases enabled : persistent_enabled_for flags key with
    | false =>
      have absent : key ∉ keys.filter (persistent_enabled_for flags) := by simp [enabled]
      rw [decide_eq_false absent]
      cases store.DEFAULTS.get? key <;> rfl
    | true =>
      have listed : key ∈ keys.filter (persistent_enabled_for flags) :=
        List.mem_filter.mpr ⟨asked, enabled⟩
      rw [decide_eq_true listed]
      cases store.rows.get? key <;> cases store.DEFAULTS.get? key <;> rfl

theorem like_of_under {key name : String} (under : startswith key (name ++ ".") = true) :
    Like.like (name ++ ".%").toList key.toList = true := by
  obtain ⟨rest, split⟩ := startswith_iff.mp under
  have pattern : (name ++ ".%").toList = (name ++ ".").toList ++ ['%'] := by
    rw [String.toList_append, String.toList_append, List.append_assoc]
    rfl
  rw [pattern, ← split]
  exact Like.like_self (Like.like_percent.mpr ⟨rest, [], (List.append_nil rest).symm, rfl⟩)

theorem get_namespace_eq (name key : String) :
    (get_namespace flags store name).get? key =
      (if startswith key (name ++ ".") && !persistent_enabled_for flags key then store.DEFAULTS.get? key
        else none).or
      (if flags.PERSISTENT_ENABLED && Like.like (name ++ ".%").toList key.toList then store.rows.get? key
        else none) := by
  unfold get_namespace
  cases flags.PERSISTENT_ENABLED with
  | false => simp
  | true => simp

theorem get_all_eq (key : String) :
    (get_all flags store).get? key =
      if flags.PERSISTENT_ENABLED then
        (if persistent_enabled_for flags key then none else store.DEFAULTS.get? key).or
          (store.rows.get? key)
      else store.DEFAULTS.get? key := by
  unfold get_all persistent_enabled_for
  cases flags.PERSISTENT_ENABLED <;> cases flags.OAUTH_PERSISTENT_ENABLED <;>
    cases oauth : startswith key "oauth." <;> simp [oauth]

/-- No default of a key that is read from the rows is without a row, and no row of a key that is read
from the defaults differs from what they have. -/
structure Consistent (flags : Flags) (store : Store) : Prop where
  seeded : ∀ key, persistent_enabled_for flags key = true → key ∈ store.DEFAULTS.keys →
    key ∈ store.rows.keys
  retired : ∀ key value, flags.PERSISTENT_ENABLED = true → persistent_enabled_for flags key = false →
    store.rows.get? key = some value → store.DEFAULTS.get? key = some value

theorem oauth_pattern {key : String} (oauth : startswith key "oauth." = true) :
    Like.like ("oaut_" ++ ".%").toList key.toList = true ∧ startswith key ("oaut_" ++ ".") = false := by
  obtain ⟨rest, split⟩ := startswith_iff.mp oauth
  rw [startswith, ← split]
  refine ⟨?_, rfl⟩
  have pattern : ("oaut_" ++ ".%").toList = "oaut_.".toList ++ ['%'] := rfl
  rw [pattern]
  refine (Like.like_append (by decide)).mpr ⟨"oauth.".toList, rest, rfl, ?_, ?_⟩
  · have fits : List.Forall₂ Like.Fits "oaut_.".toList "oauth.".toList := by decide
    exact fits
  · exact Like.like_percent.mpr ⟨rest, [], (List.append_nil rest).symm, rfl⟩

theorem agree_of_consistent (consistent : Consistent flags store) (key : String) :
    Agree flags store key := by
  -- a row of a key that is not read from the rows adds nothing
  have hidden : persistent_enabled_for flags key = false → flags.PERSISTENT_ENABLED = true →
      (store.DEFAULTS.get? key).or (store.rows.get? key) = store.DEFAULTS.get? key := by
    intro disabled on
    cases row : store.rows.get? key with
    | none => exact Option.or_none
    | some value => rw [consistent.retired key value on disabled row, Option.some_or]
  have filled : persistent_enabled_for flags key = true →
      (store.rows.get? key).or (store.DEFAULTS.get? key) = store.rows.get? key := by
    intro enabled
    cases row : store.rows.get? key with
    | some value => rfl
    | none =>
      rw [Option.none_or, Dict.get?_eq_none]
      intro defaulted
      exact Dict.get?_eq_none.mp row (consistent.seeded key enabled defaulted)
  refine ⟨reportOf flags store key, get_eq key, fun keys asked => get_many_eq asked, ?_, ?_, ?_⟩
  · intro name under
    rw [get_namespace_eq, like_of_under under, under, Bool.true_and, Bool.and_true, reportOf]
    cases enabled : persistent_enabled_for flags key with
    | true =>
      rw [enabled_flag enabled, filled enabled]
      rfl
    | false =>
      cases on : flags.PERSISTENT_ENABLED with
      | true => exact hidden enabled on
      | false => exact Option.or_none
  · intro name value reported
    rw [get_namespace_eq, Option.or_eq_some_iff] at reported
    rw [reportOf]
    rcases reported with defaulted | ⟨_, stored⟩
    · obtain ⟨under, defaulted⟩ := Option.ite_none_right_eq_some.mp defaulted
      obtain ⟨_, disabled⟩ := Bool.and_eq_true_iff.mp under
      rw [if_neg (by simpa using disabled), defaulted]
    · obtain ⟨selected, stored⟩ := Option.ite_none_right_eq_some.mp stored
      obtain ⟨on, _⟩ := Bool.and_eq_true_iff.mp selected
      cases enabled : persistent_enabled_for flags key with
      | true => rw [if_pos rfl, filled enabled, stored]
      | false => rw [if_neg Bool.false_ne_true, consistent.retired key value on enabled stored]
  · rw [get_all_eq, reportOf]
    cases enabled : persistent_enabled_for flags key with
    | true =>
      rw [enabled_flag enabled, filled enabled]
      rfl
    | false =>
      cases on : flags.PERSISTENT_ENABLED with
      | true => exact hidden enabled on
      | false => rfl

theorem report_eq {key : String} {report : Option Json}
    (got : ∀ default, get flags store key default = report.getD default) :
    report = reportOf flags store key := by
  have same := fun default => (got default).symm.trans (get_eq key default)
  cases report with
  | none =>
    cases found : reportOf flags store key with
    | none => rfl
    | some value =>
      have first := same .null
      have second := same (.bool true)
      rw [found] at first second
      exact absurd (first.trans second.symm) (by simp)
  | some value =>
    cases found : reportOf flags store key with
    | some other =>
      have agreed := same .null
      rw [found] at agreed
      exact congrArg some agreed
    | none =>
      have first := same .null
      have second := same (.bool true)
      rw [found] at first second
      exact absurd (first.symm.trans second) (by simp)

theorem consistent_of_agree (agree : ∀ key, Agree flags store key) : Consistent flags store := by
  constructor
  · intro key enabled defaulted
    obtain ⟨report, got, _, _, _, all⟩ := agree key
    rw [report_eq got, get_all_eq, enabled_flag enabled, reportOf, enabled] at all
    have same : store.rows.get? key = (store.rows.get? key).or (store.DEFAULTS.get? key) := all
    obtain ⟨value, found⟩ := Dict.exists_of_mem_keys defaulted
    rw [← Dict.get?_isSome, same, found]
    cases store.rows.get? key <;> rfl
  · intro key value on disabled stored
    obtain ⟨report, got, _, _, overlaid, _⟩ := agree key
    rcases disabled_iff.mp disabled with off | ⟨oauth, _⟩
    · rw [on] at off
      cases off
    · obtain ⟨selected, not_under⟩ := oauth_pattern oauth
      have reported := overlaid "oaut_" value (by
        rw [get_namespace_eq, selected, not_under, on, stored]
        rfl)
      rw [report_eq got, reportOf, disabled] at reported
      exact reported

theorem agree_iff_consistent : (∀ key, Agree flags store key) ↔ Consistent flags store :=
  ⟨consistent_of_agree, agree_of_consistent⟩

end

inductive Op where
  | seed_defaults (defaults : Dict String Json)
  | upsert (updates : Dict String Json)
  | delete (key : String)
  | clear

section

variable (flags : Flags) (_json_value : Json → Json)

namespace Store

variable (store : Store)

def upsert (updates : Dict String Json) : Store :=
  let updates := updates.mapValue (fun _ => _json_value)
  { rows := store.rows.merge (updates.filterKeys (persistent_enabled_for flags))
    DEFAULTS := store.DEFAULTS.merge (updates.filterKeys (fun key =>
      !persistent_enabled_for flags key)) }

def delete (key : String) : Store × Bool :=
  ({ store with rows := store.rows.erase key }, (store.rows.get? key).isSome)

def clear : Store := { store with rows := .empty }

def seed_defaults (defaults : Dict String Json) : Store :=
  { store with
    rows := store.rows.merge ((defaults.mapValue (fun _ => _json_value)).filterKeys (fun key =>
      persistent_enabled_for flags key && decide (key ∉ store.rows.keys))) }

end Store

def write (store : Store) : Op → Store
  | .seed_defaults defaults => store.seed_defaults flags _json_value defaults
  | .upsert updates => store.upsert flags _json_value updates
  | .delete key => (store.delete key).1
  | .clear => store.clear

def run (store : Store) (ops : List Op) : Store := ops.foldl (write flags _json_value) store

def rowAfter (key : String) (before : Bool) : Op → Bool
  | .seed_defaults defaults =>
    before || (persistent_enabled_for flags key && (defaults.get? key).isSome)
  | .upsert updates => before || (persistent_enabled_for flags key && (updates.get? key).isSome)
  | .delete deleted => before && decide (deleted ≠ key)
  | .clear => false

/-- Whether a key has a row after a run, which is so where it has been seeded or updated since it was
last deleted, or had one at the start and never was. -/
def hasRow (key : String) (before : Bool) (ops : List Op) : Bool :=
  ops.foldl (rowAfter flags key) before

def lastDefault (key : String) (before : Option Json) (ops : List Op) : Option Json :=
  ops.foldl (fun current op => match op with
    | .upsert updates => ((updates.get? key).map _json_value).or current
    | _ => current) before

end

section

variable {flags : Flags} {_json_value : Json → Json} {store : Store}

theorem row_write (key : String) (op : Op) :
    ((write flags _json_value store op).rows.get? key).isSome =
      rowAfter flags key (store.rows.get? key).isSome op := by
  cases op with
  | seed_defaults defaults =>
    simp only [write, Store.seed_defaults, rowAfter, Dict.get?_merge, Dict.get?_filterKeys,
      Dict.get?_mapValue]
    cases row : store.rows.get? key with
    | some value =>
      have listed := Dict.mem_keys_of_get? row
      simp [listed]
    | none =>
      have absent := Dict.get?_eq_none.mp row
      cases persistent_enabled_for flags key <;> simp [absent]
  | upsert updates =>
    simp only [write, Store.upsert, rowAfter, Dict.get?_merge, Dict.get?_filterKeys, Dict.get?_mapValue]
    cases store.rows.get? key <;> cases persistent_enabled_for flags key <;> simp
  | delete deleted =>
    simp only [write, Store.delete, rowAfter, Dict.get?_erase]
    by_cases same : deleted = key <;> simp [same]
  | clear => rfl

theorem row_write_disabled {key : String} (disabled : persistent_enabled_for flags key = false)
    (op : Op) :
    (write flags _json_value store op).rows.get? key =
      if rowAfter flags key true op then store.rows.get? key else none := by
  cases op with
  | seed_defaults defaults => simp [write, Store.seed_defaults, rowAfter, disabled]
  | upsert updates => simp [write, Store.upsert, rowAfter, disabled]
  | delete deleted =>
    simp only [write, Store.delete, rowAfter, Dict.get?_erase, Bool.true_and]
    by_cases same : deleted = key <;> simp [same]
  | clear => rfl

theorem default_write (key : String) (op : Op) :
    (write flags _json_value store op).DEFAULTS.get? key =
      if persistent_enabled_for flags key then store.DEFAULTS.get? key
      else lastDefault _json_value key (store.DEFAULTS.get? key) [op] := by
  cases op with
  | upsert updates =>
    simp only [write, Store.upsert, lastDefault, Dict.get?_merge, Dict.get?_filterKeys,
      Dict.get?_mapValue, List.foldl_cons, List.foldl_nil]
    cases persistent_enabled_for flags key <;> rfl
  | _ => exact (ite_self _).symm

theorem row_run (key : String) (ops : List Op) :
    ((run flags _json_value store ops).rows.get? key).isSome =
      hasRow flags key (store.rows.get? key).isSome ops := by
  induction ops generalizing store with
  | nil => rfl
  | cons op rest ih =>
    rw [run, List.foldl_cons, ← run, ih, row_write]
    rfl

theorem hasRow_false_of_disabled {key : String} (disabled : persistent_enabled_for flags key = false)
    (ops : List Op) : hasRow flags key false ops = false := by
  induction ops with
  | nil => rfl
  | cons op rest ih =>
    have still : rowAfter flags key false op = false := by cases op <;> simp [rowAfter, disabled]
    rw [hasRow, List.foldl_cons, still]
    exact ih

theorem row_run_disabled {key : String} (disabled : persistent_enabled_for flags key = false)
    (ops : List Op) :
    (run flags _json_value store ops).rows.get? key =
      if hasRow flags key true ops then store.rows.get? key else none := by
  induction ops generalizing store with
  | nil => rfl
  | cons op rest ih =>
    have later : hasRow flags key true (op :: rest) =
        hasRow flags key (rowAfter flags key true op) rest := rfl
    rw [run, List.foldl_cons, ← run, ih, row_write_disabled disabled, later]
    cases rowAfter flags key true op with
    | true => rfl
    | false =>
      rw [hasRow_false_of_disabled disabled]
      exact ite_self _

theorem default_run (key : String) (ops : List Op) :
    (run flags _json_value store ops).DEFAULTS.get? key =
      if persistent_enabled_for flags key then store.DEFAULTS.get? key
      else lastDefault _json_value key (store.DEFAULTS.get? key) ops := by
  induction ops generalizing store with
  | nil => exact (ite_self _).symm
  | cons op rest ih =>
    rw [run, List.foldl_cons, ← run, ih, default_write]
    cases persistent_enabled_for flags key <;> rfl

/-- At the end of the run every default that is read from the rows has one, and a row that was there
at the start of a key that is not read from them is gone or has the value of its default. -/
structure Covered (flags : Flags) (_json_value : Json → Json) (start : Store) (ops : List Op) : Prop where
  seeded : ∀ key, persistent_enabled_for flags key = true → key ∈ start.DEFAULTS.keys →
    hasRow flags key (start.rows.get? key).isSome ops = true
  retired : ∀ key value, flags.PERSISTENT_ENABLED = true → persistent_enabled_for flags key = false →
    start.rows.get? key = some value → hasRow flags key true ops = true →
      lastDefault _json_value key (start.DEFAULTS.get? key) ops = some value

theorem consistent_run_iff {ops : List Op} :
    Consistent flags (run flags _json_value store ops) ↔ Covered flags _json_value store ops := by
  have defaulted : ∀ key, persistent_enabled_for flags key = true →
      (key ∈ (run flags _json_value store ops).DEFAULTS.keys ↔ key ∈ store.DEFAULTS.keys) := by
    intro key enabled
    rw [← Dict.get?_isSome, ← Dict.get?_isSome, default_run, enabled, if_pos rfl]
  constructor
  · intro consistent
    constructor
    · intro key enabled listed
      rw [← @row_run flags _json_value, Dict.get?_isSome]
      exact consistent.seeded key enabled ((defaulted key enabled).mpr listed)
    · intro key value on disabled stored left
      have found := consistent.retired key value on disabled (by
        rw [row_run_disabled disabled, left, if_pos rfl, stored])
      rwa [default_run, disabled, if_neg Bool.false_ne_true] at found
  · intro covered
    constructor
    · intro key enabled listed
      rw [← Dict.get?_isSome, row_run]
      exact covered.seeded key enabled ((defaulted key enabled).mp listed)
    · intro key value on disabled stored
      rw [row_run_disabled disabled] at stored
      obtain ⟨left, stored⟩ := Option.ite_none_right_eq_some.mp stored
      rw [default_run, disabled, if_neg Bool.false_ne_true]
      exact covered.retired key value on disabled stored left

end

/-- After a run of writes all readers agree on every key exactly where the run covers the defaults. -/
theorem readers_agree_iff (flags : Flags) (_json_value : Json → Json) (start : Store) (ops : List Op) :
    (∀ key, Agree flags (run flags _json_value start ops) key) ↔ Covered flags _json_value start ops :=
  agree_iff_consistent.trans consistent_run_iff

def banner : Dict String Json := Dict.ofEntries [("ui.banner", .str "Hello")]

theorem deleted_disagree :
    let after := run ⟨true, true⟩ id ⟨.empty, banner⟩ [.seed_defaults banner, .delete "ui.banner"]
    get ⟨true, true⟩ after "ui.banner" .null = .str "Hello" ∧
      (get_all ⟨true, true⟩ after).get? "ui.banner" = none ∧
        ¬ ∀ key, Agree ⟨true, true⟩ after key := by
  refine ⟨by decide, by decide, fun agree => ?_⟩
  have covered := consistent_run_iff.mp (consistent_of_agree agree)
  have row := covered.seeded "ui.banner" rfl (by decide)
  revert row
  decide

end OpenWebui.Config
