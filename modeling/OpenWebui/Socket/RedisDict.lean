import Mathlib.Data.List.Nodup
import OpenWebui.Base.Dict
import OpenWebui.Base.Runs

/-! `RedisDict`: a dictionary kept as a Redis hash of JSON texts. `set` remembers a fingerprint of
what it wrote, and does not write the same again. -/

namespace OpenWebui.Socket

/-- How values are written as JSON, and the digest of a text. What is loaded is what was dumped. -/
structure Codec (α : Type) where
  dumps : α → String
  loads : String → α
  loads_dumps : ∀ value, loads (dumps value) = value
  sha256 : List Char → String

/-- The hash, as far as it is there, and `_last_signature`. -/
structure RedisDict where
  hash : Dict String String
  last_signature : Option String

/-- What a caller does. `update` gets the items of another mapping and then the named ones. -/
inductive Operation (α : Type) where
  | set (mapping : Dict String α)
  | setitem (key : String) (value : α)
  | delitem (key : String)
  | update (other kwargs : List (String × α))
  | setdefault (key : String) (default : α)
  | clear

inductive Reply (α : Type) where
  | done
  | value (value : α)
  | keyError

variable {α : Type} (codec : Codec α)

/-- `serialized`. -/
def serialized (mapping : Dict String α) : Dict String String :=
  mapping.mapValue (fun _ value => codec.dumps value)

def signature (mapping : Dict String α) : String :=
  let serialized := serialized codec mapping
  codec.sha256 ((serialized.keys.mergeSort (fun first second => decide (first ≤ second))).flatMap
    (fun key => key.toList ++ ['\x00'] ++ ((serialized.get? key).getD "").toList ++ ['\x00']))

namespace RedisDict

variable (state : RedisDict)

/-- `self.redis = get_redis_connection(...)`, before anything was written. -/
def init : RedisDict := ⟨Dict.empty, none⟩

def getitem? (key : String) : Option α := (state.hash.get? key).map codec.loads

def len : Nat := state.hash.keys.length

def keys : List String := state.hash.keys

def items : List (String × α) := state.hash.entries.map (fun entry => (entry.1, codec.loads entry.2))

def setitem (key : String) (value : α) : RedisDict :=
  { state with hash := state.hash.set key (codec.dumps value) }

def clear : RedisDict := ⟨Dict.empty, none⟩

def set (mapping : Dict String α) : RedisDict :=
  if mapping.keys = [] then ⟨Dict.empty, none⟩
  else
    let signature := signature codec mapping
    if some signature = state.last_signature then state
    else
      let keys_to_remove := state.hash.keys.filter (fun key => decide (key ∉ mapping.keys))
      ⟨keys_to_remove.foldl Dict.erase (state.hash.merge (serialized codec mapping)), some signature⟩

def step : Operation α → RedisDict × Reply α
  | .set mapping => (state.set codec mapping, .done)
  | .setitem key value => (state.setitem codec key value, .done)
  | .delitem key =>
    match state.hash.get? key with
    | none => (state, .keyError)
    | some _ => ({ state with hash := state.hash.erase key }, .done)
  | .update other kwargs =>
    ((other ++ kwargs).foldl (fun state item => state.setitem codec item.1 item.2) state, .done)
  | .setdefault key default =>
    let state := if (state.hash.get? key).isSome then state else state.setitem codec key default
    (state, match state.getitem? codec key with
      | some value => .value value
      | none => .keyError)
  | .clear => (clear, .done)

def run (operations : List (Operation α)) : RedisDict :=
  operations.foldl (fun state operation => (state.step codec operation).1) init

end RedisDict

/-- The same operation on a dictionary of the process, where `set` replaces the content. -/
def plainStep (dict : Dict String α) : Operation α → Dict String α × Reply α
  | .set mapping => (mapping, .done)
  | .setitem key value => (dict.set key value, .done)
  | .delitem key =>
    match dict.get? key with
    | none => (dict, .keyError)
    | some _ => (dict.erase key, .done)
  | .update other kwargs =>
    ((other ++ kwargs).foldl (fun dict item => dict.set item.1 item.2) dict, .done)
  | .setdefault key default =>
    match dict.get? key with
    | some value => (dict, .value value)
    | none => (dict.set key default, .value default)
  | .clear => (Dict.empty, .done)

def plainRun (operations : List (Operation α)) : Dict String α :=
  operations.foldl (fun dict operation => (plainStep dict operation).1) Dict.empty

/-- Everything that is read back is the same. The hash has no order. -/
structure Same (state : RedisDict) (dict : Dict String α) : Prop where
  get : ∀ key, state.getitem? codec key = dict.get? key
  keys : state.keys.Perm dict.keys
  len : state.len = dict.keys.length
  items : (state.items codec).Perm dict.entries

/-- An operation has the same result as on a dictionary, and leaves the same content. -/
structure Behaves (earlier : List (Operation α)) (operation : Operation α) : Prop where
  reply : ((RedisDict.run codec earlier).step codec operation).2 =
    (plainStep (plainRun earlier) operation).2
  content : Same codec (RedisDict.run codec (earlier ++ [operation])) (plainRun (earlier ++ [operation]))

/-- What the last `set` wrote, unless the content was cleared since. -/
def remembered : List (Operation α) → Option (Dict String α) :=
  List.foldl (fun last operation =>
    match operation with
    | .set mapping => if mapping.keys = [] then none else some mapping
    | .clear => none
    | _ => last) none

/-- A `set` of what the last one wrote finds the content as that one left it. -/
def Fresh (earlier : List (Operation α)) (operation : Operation α) : Prop :=
  ∀ mapping, operation = .set mapping → mapping.keys ≠ [] →
    (remembered earlier).map (signature codec) = some (signature codec mapping) →
      ∀ key, (plainRun earlier).get? key = mapping.get? key

section Content

variable {codec} {state : RedisDict} {dict : Dict String α}

theorem same_of_get (get : ∀ key, state.getitem? codec key = dict.get? key) :
    Same codec state dict := by
  have members : ∀ key, key ∈ state.keys ↔ key ∈ dict.keys := by
    intro key
    rw [RedisDict.keys, ← Dict.get?_isSome, ← Dict.get?_isSome, ← get key, RedisDict.getitem?,
      Option.isSome_map]
  have keys : state.keys.Perm dict.keys :=
    (List.perm_ext_iff_of_nodup state.hash.keys_nodup dict.keys_nodup).mpr members
  have read : (state.hash.mapValue (fun _ text => codec.loads text)).entries = state.items codec := rfl
  refine ⟨get, keys, keys.length_eq, ?_⟩
  rw [← read]
  refine (List.perm_ext_iff_of_nodup (List.Nodup.of_map Prod.fst (Dict.unique _))
    (List.Nodup.of_map Prod.fst dict.unique)).mpr ?_
  intro entry
  rw [Dict.mem_entries_iff, Dict.mem_entries_iff, ← get entry.1, Dict.get?_mapValue]
  rfl

theorem getitem?_setitem (key : String) (value : α) (query : String) :
    (state.setitem codec key value).getitem? codec query =
      if key = query then some value else state.getitem? codec query := by
  rw [RedisDict.getitem?, RedisDict.setitem, Dict.get?_set]
  split
  · rw [Option.map_some, codec.loads_dumps]
  · rfl

theorem getitem?_erase (key query : String) (last_signature : Option String) :
    RedisDict.getitem? codec ⟨state.hash.erase key, last_signature⟩ query =
      if key = query then none else state.getitem? codec query := by
  rw [RedisDict.getitem?, Dict.get?_erase]
  split <;> rfl

theorem setitem_same (same : Same codec state dict) (key : String) (value : α) :
    Same codec (state.setitem codec key value) (dict.set key value) := by
  apply same_of_get
  intro query
  rw [getitem?_setitem, Dict.get?_set, same.get]

theorem update_same (same : Same codec state dict) (items : List (String × α)) :
    Same codec (items.foldl (fun state item => state.setitem codec item.1 item.2) state)
      (items.foldl (fun dict item => dict.set item.1 item.2) dict) := by
  induction items generalizing state dict with
  | nil => exact same
  | cons item rest ih => exact ih (setitem_same same item.1 item.2)

theorem getitem?_set (state : RedisDict) {mapping : Dict String α} (filled : mapping.keys ≠ [])
    (other : some (signature codec mapping) ≠ state.last_signature) (key : String) :
    (state.set codec mapping).getitem? codec key = mapping.get? key := by
  rw [RedisDict.set, if_neg filled]
  dsimp only
  rw [if_neg other, RedisDict.getitem?, Dict.get?_foldl_erase, Dict.get?_merge, serialized,
    Dict.get?_mapValue]
  cases found : mapping.get? key with
  | some value =>
    have kept : key ∉ state.hash.keys.filter (fun key => decide (key ∉ mapping.keys)) := by
      simp [Dict.mem_keys_of_get? found]
    rw [if_neg kept, Option.map_some, Option.some_or, Option.map_some, codec.loads_dumps]
  | none =>
    have absent := Dict.get?_eq_none.mp found
    rw [Option.map_none, Option.none_or]
    split
    · rfl
    · rename_i kept
      have missing : key ∉ state.hash.keys := by
        intro member
        exact kept (List.mem_filter.mpr ⟨member, by simpa using absent⟩)
      rw [Dict.get?_eq_none.mpr missing]
      rfl

end Content

section Steps

variable {codec} {earlier : List (Operation α)}

theorem run_append (operation : Operation α) :
    RedisDict.run codec (earlier ++ [operation]) =
      ((RedisDict.run codec earlier).step codec operation).1 := by
  rw [RedisDict.run, List.foldl_append]
  rfl

theorem plainRun_append (operation : Operation α) :
    plainRun (earlier ++ [operation]) = (plainStep (plainRun earlier) operation).1 := by
  rw [plainRun, List.foldl_append]
  rfl

theorem foldl_setitem_last (state : RedisDict) (items : List (String × α)) :
    (items.foldl (fun state item => state.setitem codec item.1 item.2) state).last_signature =
      state.last_signature := by
  induction items generalizing state with
  | nil => rfl
  | cons item rest ih =>
    rw [List.foldl_cons, ih]
    rfl

theorem last_signature_eq (operations : List (Operation α)) :
    (RedisDict.run codec operations).last_signature =
      (remembered operations).map (signature codec) := by
  induction operations using List.reverseRecOn with
  | nil => rfl
  | append_singleton earlier operation ih =>
    rw [run_append, remembered, List.foldl_append, ← remembered]
    cases operation with
    | set mapping =>
      simp only [RedisDict.step, RedisDict.set, List.foldl_cons, List.foldl_nil]
      split
      · rfl
      · split
        · rename_i again
          exact again.symm
        · rfl
    | setitem key value => exact ih
    | delitem key =>
      rw [RedisDict.step]
      split <;> exact ih
    | update other kwargs =>
      rw [RedisDict.step, foldl_setitem_last]
      exact ih
    | setdefault key default =>
      rw [RedisDict.step]
      dsimp only
      split <;> exact ih
    | clear => rfl

theorem Behaves.of {operation : Operation α}
    (reply : ((RedisDict.run codec earlier).step codec operation).2 =
      (plainStep (plainRun earlier) operation).2)
    (content : Same codec ((RedisDict.run codec earlier).step codec operation).1
      (plainStep (plainRun earlier) operation).1) : Behaves codec earlier operation :=
  ⟨reply, by rwa [run_append, plainRun_append]⟩

theorem behaves_set_iff (same : Same codec (RedisDict.run codec earlier) (plainRun earlier))
    (mapping : Dict String α) :
    Behaves codec earlier (.set mapping) ↔ Fresh codec earlier (.set mapping) := by
  by_cases filled : mapping.keys = []
  · refine iff_of_true (.of rfl ?_) ?_
    · apply same_of_get
      intro key
      have missing : mapping.get? key = none := Dict.get?_eq_none.mpr (by simp [filled])
      simp only [RedisDict.step, RedisDict.set, if_pos filled, plainStep, missing]
      rfl
    · intro other same_set other_filled
      obtain rfl := Operation.set.inj same_set
      exact absurd filled other_filled
  · by_cases again : some (signature codec mapping) = (RedisDict.run codec earlier).last_signature
    · have unchanged : (RedisDict.run codec earlier).set codec mapping =
          RedisDict.run codec earlier := by
        rw [RedisDict.set, if_neg filled]
        dsimp only
        rw [if_pos again]
      constructor
      · intro behaves other same_set _ _ key
        obtain rfl := Operation.set.inj same_set
        have after := behaves.content.get key
        rw [run_append, plainRun_append, RedisDict.step, plainStep, unchanged, same.get] at after
        exact after
      · intro fresh
        refine .of rfl (same_of_get (fun key => ?_))
        have kept := fresh mapping rfl filled (by rw [← last_signature_eq, again]) key
        rw [RedisDict.step, plainStep, unchanged, same.get]
        exact kept
    · refine iff_of_true (.of rfl (same_of_get (fun key => ?_))) ?_
      · exact getitem?_set _ filled again key
      · intro other same_set _ seen
        obtain rfl := Operation.set.inj same_set
        rw [← last_signature_eq] at seen
        exact absurd seen.symm again

theorem behaves_delitem (same : Same codec (RedisDict.run codec earlier) (plainRun earlier))
    (key : String) : Behaves codec earlier (.delitem key) := by
  have found := same.get key
  rw [RedisDict.getitem?] at found
  cases stored : (RedisDict.run codec earlier).hash.get? key with
  | none =>
    rw [stored, Option.map_none] at found
    apply Behaves.of
    · rw [RedisDict.step, plainStep, stored, ← found]
    · rw [RedisDict.step, plainStep, stored, ← found]
      exact same
  | some text =>
    rw [stored, Option.map_some] at found
    apply Behaves.of
    · rw [RedisDict.step, plainStep, stored, ← found]
    · rw [RedisDict.step, plainStep, stored, ← found]
      apply same_of_get
      intro query
      dsimp only
      rw [getitem?_erase, Dict.get?_erase, same.get]

theorem behaves_setdefault (same : Same codec (RedisDict.run codec earlier) (plainRun earlier))
    (key : String) (default : α) : Behaves codec earlier (.setdefault key default) := by
  have found := same.get key
  rw [RedisDict.getitem?] at found
  cases stored : (RedisDict.run codec earlier).hash.get? key with
  | none =>
    rw [stored, Option.map_none] at found
    have missing : ¬ (none : Option String).isSome = true := nofun
    apply Behaves.of
    · rw [RedisDict.step, plainStep, stored, ← found]
      dsimp only
      rw [if_neg missing, getitem?_setitem, if_pos rfl]
    · rw [RedisDict.step, plainStep, stored, ← found]
      dsimp only
      rw [if_neg missing]
      exact setitem_same same key default
  | some text =>
    rw [stored, Option.map_some] at found
    apply Behaves.of
    · rw [RedisDict.step, plainStep, stored, ← found]
      dsimp only
      rw [if_pos Option.isSome_some, same.get, ← found]
    · rw [RedisDict.step, plainStep, stored, ← found]
      dsimp only
      rw [if_pos Option.isSome_some]
      exact same

theorem behaves_iff (same : Same codec (RedisDict.run codec earlier) (plainRun earlier))
    (operation : Operation α) : Behaves codec earlier operation ↔ Fresh codec earlier operation := by
  cases operation with
  | set mapping => exact behaves_set_iff same mapping
  | setitem key value => exact iff_of_true (.of rfl (setitem_same same key value)) nofun
  | delitem key => exact iff_of_true (behaves_delitem same key) nofun
  | update other kwargs => exact iff_of_true (.of rfl (update_same same (other ++ kwargs))) nofun
  | setdefault key default => exact iff_of_true (behaves_setdefault same key default) nofun
  | clear => exact iff_of_true (.of rfl (same_of_get (fun _ => rfl))) nofun

end Steps

/-- The hash behaves like a dictionary through a sequence of operations exactly where no `set` is
taken for the last one after the content has changed. -/
theorem redis_dict_behaves_iff (operations : List (Operation α)) :
    Runs.Always (Behaves codec) operations ↔ Runs.Always (Fresh codec) operations := by
  refine @Runs.always_iff_of_invariant _ (Behaves codec) (Fresh codec)
    (fun earlier => Same codec (RedisDict.run codec earlier) (plainRun earlier))
    (same_of_get (fun _ => rfl)) (fun earlier operation same => behaves_iff same operation) ?_
    operations
  intro earlier operation _ behaves
  exact behaves.content

section Samples

def truthCodec : Codec Bool where
  dumps value := if value then "true" else "false"
  loads text := decide (text = "true")
  loads_dumps value := by cases value <;> decide
  sha256 text := String.ofList text

def oneModel : Dict String Bool := Dict.empty.set "llama" true

/-- A `set` of what was set before leaves what was added in between. -/
theorem set_again_not_exact :
    ¬ ∀ (α : Type) (codec : Codec α) (operations : List (Operation α)),
      Runs.Always (Behaves codec) operations := by
  intro always
  have behaves := always Bool truthCodec
    [.set oneModel, .setitem "qwen" true, .set oneModel]
    [.set oneModel, .setitem "qwen" true] (.set oneModel) [] rfl
  have read := behaves.content.len
  revert read
  decide +kernel

end Samples

end OpenWebui.Socket
