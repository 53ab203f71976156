import OpenWebui.Base.Json
import OpenWebui.Base.Like
import OpenWebui.Base.Paths
import OpenWebui.Base.Text

/-! `Config.repair_flattened_dict_configs`: rows of flattened dictionaries are put together again.
-/

namespace OpenWebui.Config

def API_CONFIG_KEYS : List String := ["openai.api_configs", "ollama.api_configs"]

def DICT_CONFIG_KEY_ALIASES : List (String × List String) :=
  [("openai.api_configs", ["OPENAI_API_CONFIGS"]),
    ("ollama.api_configs", ["OLLAMA_API_CONFIGS"]),
    ("rag.mineru_params", ["MINERU_PARAMS"]),
    ("rag.docling_params", ["DOCLING_PARAMS"]),
    ("web.search.linkup_search_params", ["LINKUP_SEARCH_PARAMS"]),
    ("image_generation.automatic1111.api_params", ["AUTOMATIC1111_PARAMS"]),
    ("image_generation.openai.params", ["IMAGES_OPENAI_API_PARAMS"]),
    ("audio.tts.openai.params", ["AUDIO_TTS_OPENAI_PARAMS"]),
    ("models.default_metadata", ["DEFAULT_MODEL_METADATA"]),
    ("models.default_params", ["DEFAULT_MODEL_PARAMS"]),
    ("user.permissions", ["USER_PERMISSIONS"])]

def API_CONFIG_FIELDS : List String :=
  ["enable", "key", "prefix_id", "tags", "model_ids", "connection_type", "provider", "auth_type",
    "headers", "azure", "api_type", "api_version", "extra_params", "passthrough_params"]

def prefixes (entry : String × List String) : List String := entry.1 :: entry.2

/-- `text.rfind(marker)` -/
def rfind (marker : List Char) : List Char → Option Nat
  | [] => if marker.isEmpty then some 0 else none
  | char :: rest =>
    match rfind marker rest with
    | some place => some (place + 1)
    | none => if marker.isPrefixOf (char :: rest) then some 0 else none

def lastMarker (fragment : List Char) : Option Nat :=
  API_CONFIG_FIELDS.foldl (fun found field =>
    match rfind ('.' :: field.toList) fragment with
    | none => found
    | some marker_index =>
      if found.all (fun place => decide (place < marker_index)) then some marker_index else found) none

def parts (text : List Char) : List String := (Text.split '.' text).map String.ofList

/-- The name of the connection, and the path under it; `isdigit` is that of a character. -/
def _split_api_config_fragment (isdigit : Char → Bool) (fragment : List Char) :
    Option (String × List String) :=
  let first := fragment.takeWhile (fun char => decide (char ≠ '.'))
  let rest := (fragment.dropWhile (fun char => decide (char ≠ '.'))).tail
  if fragment = [] then none
  else if first ≠ [] ∧ first.all isdigit = true ∧ rest ≠ [] then
    some (String.ofList first, parts rest)
  else
    match lastMarker fragment with
    | none => none
    | some marker_index =>
      if fragment.take marker_index = [] then none
      else some (String.ofList (fragment.take marker_index), parts (fragment.drop (marker_index + 1)))

def _assign_path (target : Fields) (path : List String) (value : Json) : Fields :=
  Json.assign target path value

def selectRows (config : Dict String Json) (key_head : String) : List (String × Json) :=
  config.entries.filter (fun row => Like.like (key_head ++ ".%").toList row.1.toList)

def fragmentOf (key_prefixes : List String) (key : String) : Option (List Char) :=
  key_prefixes.findSome? (fun key_head =>
    if (key_head ++ ".").toList.isPrefixOf key.toList then
      some (key.toList.drop (key_head ++ ".").toList.length)
    else none)

section Repair

variable (isdigit : Char → Bool)

def mergeRow (entry : String × List String) (state : Fields × List String) (row : String × Json) :
    Fields × List String :=
  match fragmentOf (prefixes entry) row.1 with
  | none => state
  | some fragment =>
    if entry.1 ∈ API_CONFIG_KEYS then
      match _split_api_config_fragment isdigit fragment with
      | none => state
      | some (object_key, field_path) =>
        match (state.1.lookup object_key).getD (.obj []) with
        | .obj target =>
          (Assoc.set state.1 object_key (.obj (_assign_path target field_path row.2)),
            state.2 ++ [row.1])
        | _ => state
    else (_assign_path state.1 (parts fragment) row.2, state.2 ++ [row.1])

/-- The column is written when what is assigned differs from the loaded value as it then is. A
dictionary that was loaded is changed in place, so it is what is assigned. -/
def flushed (existing : Option Json) (repaired : Fields) : Option Json :=
  let loaded : Option Json := match existing with
    | some (.obj _) => some (.obj repaired)
    | other => other
  if loaded.any (fun loaded => Json.equal (.obj repaired) loaded) then existing
  else some (.obj repaired)

def repairKey (config : Dict String Json) (entry : String × List String) :
    Dict String Json × List String :=
  let rows := (prefixes entry).flatMap (selectRows config)
  let existing := config.get? entry.1
  let (repaired, incorporated) := rows.foldl (mergeRow isdigit entry) (Json.fieldsOf existing, [])
  if incorporated = [] then (config, [])
  else
    match flushed existing repaired with
    | none => (config, incorporated)
    | some value => (config.set entry.1 value, incorporated)

def repairKeys (entries : List (String × List String)) (state : Dict String Json × List String) :
    Dict String Json × List String :=
  entries.foldl (fun state entry =>
    let (written, incorporated) := repairKey isdigit state.1 entry
    (written, state.2 ++ incorporated)) state

def repair_flattened_dict_configs (PERSISTENT_ENABLED : Bool) (config : Dict String Json) :
    Dict String Json :=
  if PERSISTENT_ENABLED then
    let (written, orphan_keys) := repairKeys isdigit DICT_CONFIG_KEY_ALIASES (config, [])
    orphan_keys.foldl Dict.erase written
  else config

end Repair

end OpenWebui.Config

namespace OpenWebui.Config

open Json (atPath Leaf)

def dotted (path : List String) : List Char := ['.'].intercalate (path.map String.toList)

def rowKey (key_head : String) (path : List String) : String :=
  String.ofList ((key_head ++ ".").toList ++ dotted path)

/-- The key starts with the name and a dot. -/
def Under (key_head key : String) : Prop := (key_head ++ ".").toList <+: key.toList

instance (key_head key : String) : Decidable (Under key_head key) :=
  inferInstanceAs (Decidable (_ <+: _))

theorem under_rowKey (key_head : String) (path : List String) :
    Under key_head (rowKey key_head path) := by
  rw [Under, rowKey, String.toList_ofList]
  exact List.prefix_append _ _

theorem names_apart : ∀ entry ∈ DICT_CONFIG_KEY_ALIASES, ∀ other ∈ DICT_CONFIG_KEY_ALIASES,
    ∀ key_head ∈ prefixes entry, ∀ other_head ∈ prefixes other,
      (key_head ++ ".").toList <+: (other_head ++ ".").toList →
        entry = other ∧ key_head = other_head := by
  decide

theorem key_not_under : ∀ entry ∈ DICT_CONFIG_KEY_ALIASES, ∀ other ∈ DICT_CONFIG_KEY_ALIASES,
    ∀ key_head ∈ prefixes other, ¬ Under key_head entry.1 := by
  decide

theorem names_plain : ∀ entry ∈ DICT_CONFIG_KEY_ALIASES, ∀ key_head ∈ prefixes entry,
    '%' ∉ (key_head ++ ".").toList := by
  decide

theorem under_unique {entry other : String × List String} (known : entry ∈ DICT_CONFIG_KEY_ALIASES)
    (known_other : other ∈ DICT_CONFIG_KEY_ALIASES) {key_head other_head key : String}
    (listed : key_head ∈ prefixes entry) (listed_other : other_head ∈ prefixes other)
    (under : Under key_head key) (under_other : Under other_head key) :
    entry = other ∧ key_head = other_head := by
  rcases List.prefix_or_prefix_of_prefix under under_other with shorter | longer
  · exact names_apart entry known other known_other key_head listed other_head listed_other shorter
  · obtain ⟨same, same_prefix⟩ :=
      names_apart other known_other entry known other_head listed_other key_head listed longer
    exact ⟨same.symm, same_prefix.symm⟩

variable {entry : String × List String}

theorem fragmentOf_eq_none {key_prefixes : List String} {key : String}
    (elsewhere : ∀ key_head ∈ key_prefixes, ¬ Under key_head key) :
    fragmentOf key_prefixes key = none := by
  rw [fragmentOf, List.findSome?_eq_none_iff]
  intro key_head listed
  rw [if_neg]
  rw [List.isPrefixOf_iff_prefix]
  exact elsewhere key_head listed

theorem fragmentOf_under {key_prefixes : List String} {key : String} {fragment : List Char}
    (found : fragmentOf key_prefixes key = some fragment) :
    ∃ key_head ∈ key_prefixes, key.toList = (key_head ++ ".").toList ++ fragment := by
  obtain ⟨key_head, listed, made⟩ := List.exists_of_findSome?_eq_some found
  refine ⟨key_head, listed, ?_⟩
  split at made
  · rename_i begins
    obtain ⟨rest, split⟩ := List.isPrefixOf_iff_prefix.mp begins
    obtain rfl := Option.some.inj made
    rw [← split, List.drop_left]
  · cases made

theorem fragmentOf_of_under (known : entry ∈ DICT_CONFIG_KEY_ALIASES) {key_head key : String}
    (listed : key_head ∈ prefixes entry) {fragment : List Char}
    (split : key.toList = (key_head ++ ".").toList ++ fragment) :
    fragmentOf (prefixes entry) key = some fragment := by
  have under : Under key_head key := ⟨fragment, split.symm⟩
  cases found : fragmentOf (prefixes entry) key with
  | none =>
    rw [fragmentOf, List.findSome?_eq_none_iff] at found
    have here := found key_head listed
    rw [if_pos (List.isPrefixOf_iff_prefix.mpr under)] at here
    cases here
  | some other =>
    obtain ⟨other_head, listed_other, split_other⟩ := fragmentOf_under found
    have under_other : Under other_head key := ⟨other, split_other.symm⟩
    obtain ⟨_, rfl⟩ := under_unique known known listed listed_other under under_other
    rw [split] at split_other
    rw [List.append_cancel_left split_other]

theorem fragmentOf_rowKey (known : entry ∈ DICT_CONFIG_KEY_ALIASES) {key_head : String}
    (listed : key_head ∈ prefixes entry) (path : List String) :
    fragmentOf (prefixes entry) (rowKey key_head path) = some (dotted path) :=
  fragmentOf_of_under known listed (by rw [rowKey, String.toList_ofList])

theorem mem_rows_of_under (known : entry ∈ DICT_CONFIG_KEY_ALIASES) {config : Dict String Json}
    {key_head key : String} {value : Json} (listed : key_head ∈ prefixes entry)
    (under : Under key_head key) (found : config.get? key = some value) :
    (key, value) ∈ (prefixes entry).flatMap (selectRows config) := by
  refine List.mem_flatMap.mpr ⟨key_head, listed, ?_⟩
  rw [selectRows, List.mem_filter]
  refine ⟨Dict.mem_entries_iff.mpr found, ?_⟩
  obtain ⟨rest, split⟩ := under
  have pattern : (key_head ++ ".%").toList = (key_head ++ ".").toList ++ ['%'] := by
    simp [String.toList_append]
  rw [pattern, Like.like_append (names_plain entry known key_head listed)]
  refine ⟨_, rest, split.symm, Like.forall₂_fits_of_lower rfl, ?_⟩
  rw [Like.like_percent]
  exact ⟨rest, [], (List.append_nil rest).symm, rfl⟩

theorem get?_of_mem_rows {config : Dict String Json} {row : String × Json}
    (member : row ∈ (prefixes entry).flatMap (selectRows config)) :
    config.get? row.1 = some row.2 := by
  obtain ⟨key_head, _, selected⟩ := List.mem_flatMap.mp member
  exact Dict.mem_entries_iff.mp (List.mem_filter.mp selected).1

def slotOf (isdigit : Char → Bool) (entry : String × List String) (fragment : List Char) :
    Option (List String) :=
  if entry.1 ∈ API_CONFIG_KEYS then
    (_split_api_config_fragment isdigit fragment).map (fun split => split.1 :: split.2)
  else some (parts fragment)

/-- What stands where the object of a connection should be is none. -/
def Blocked (entry : String × List String) (fields : Fields) (path : List String) : Prop :=
  entry.1 ∈ API_CONFIG_KEYS ∧ ∃ object_key value, path.head? = some object_key ∧
    fields.lookup object_key = some value ∧ Leaf value

variable {isdigit : Char → Bool}

theorem parts_ne_nil (text : List Char) : parts text ≠ [] := by
  rw [parts, Ne, List.map_eq_nil_iff]
  exact Text.split_ne_nil text

theorem split_path_ne_nil {fragment : List Char} {object_key : String} {field_path : List String}
    (split : _split_api_config_fragment isdigit fragment = some (object_key, field_path)) :
    field_path ≠ [] := by
  unfold _split_api_config_fragment at split
  dsimp only at split
  split at split
  · cases split
  · split at split
    · obtain ⟨_, rfl⟩ := Prod.mk.inj (Option.some.inj split)
      exact parts_ne_nil _
    · split at split
      · cases split
      · split at split
        · cases split
        · obtain ⟨_, rfl⟩ := Prod.mk.inj (Option.some.inj split)
          exact parts_ne_nil _

theorem slotOf_ne_nil {fragment : List Char} {path : List String}
    (slot : slotOf isdigit entry fragment = some path) : path ≠ [] := by
  unfold slotOf at slot
  split at slot
  · obtain ⟨split, _, rfl⟩ := Option.map_eq_some_iff.mp slot
    exact List.cons_ne_nil _ _
  · obtain rfl := Option.some.inj slot
    exact parts_ne_nil fragment

theorem assign_cons (fields : Fields) (part : String) {path : List String} (some_path : path ≠ [])
    (value : Json) : Json.assign fields (part :: path) value = Assoc.set fields part
      (.obj (Json.assign (Json.fieldsOf (fields.lookup part)) path value)) := by
  cases path with
  | nil => exact absurd rfl some_path
  | cons next rest => rfl

/-! The text of a slot is that of the fragment. -/

theorem dotted_cons (part : String) {path : List String} (some_path : path ≠ []) :
    dotted (part :: path) = part.toList ++ '.' :: dotted path := by
  cases path with
  | nil => exact absurd rfl some_path
  | cons next rest =>
    rw [dotted, List.map_cons, List.map_cons, List.intercalate_cons_cons, List.append_assoc]
    rfl

theorem dotted_parts (text : List Char) : dotted (parts text) = text := by
  rw [dotted, parts, List.map_map]
  have same : (String.toList ∘ String.ofList) = id := by
    funext text
    exact String.toList_ofList
  rw [same, List.map_id, Text.intercalate_split]

theorem parts_dotted {path : List String} (some_path : path ≠ [])
    (free : ∀ part ∈ path, '.' ∉ part.toList) : parts (dotted path) = path := by
  rw [parts, dotted, Text.split_intercalate]
  · rw [List.map_map]
    have same : (String.ofList ∘ String.toList) = id := by
      funext text
      exact String.ofList_toList
    rw [same, List.map_id]
  · intro text member
    obtain ⟨part, listed, rfl⟩ := List.mem_map.mp member
    exact free part listed
  · rwa [Ne, List.map_eq_nil_iff]

theorem rfind_prefix {marker text : List Char} {place : Nat} (found : rfind marker text = some place) :
    marker <+: text.drop place := by
  induction text generalizing place with
  | nil =>
    rw [rfind] at found
    split at found
    · rename_i empty
      rw [List.isEmpty_iff.mp empty]
      exact List.nil_prefix
    · cases found
  | cons char rest ih =>
    rw [rfind] at found
    split at found
    · rename_i later there
      obtain rfl := Option.some.inj found
      exact ih there
    · split at found
      · rename_i begins
        obtain rfl := Option.some.inj found
        exact List.isPrefixOf_iff_prefix.mp begins
      · cases found

theorem lastMarker_found {fragment : List Char} {place : Nat}
    (found : lastMarker fragment = some place) :
    ∃ field ∈ API_CONFIG_FIELDS, rfind ('.' :: field.toList) fragment = some place := by
  unfold lastMarker at found
  generalize API_CONFIG_FIELDS = fields at found
  induction fields using List.reverseRecOn with
  | nil => cases found
  | append_singleton fields field ih =>
    rw [List.foldl_append, List.foldl_cons, List.foldl_nil] at found
    cases here : rfind ('.' :: field.toList) fragment with
    | none =>
      simp only [here] at found
      obtain ⟨other, listed, there⟩ := ih found
      exact ⟨other, List.mem_append_left _ listed, there⟩
    | some marker_index =>
      simp only [here] at found
      split at found
      · obtain rfl := Option.some.inj found
        exact ⟨field, List.mem_append_right _ List.mem_cons_self, here⟩
      · obtain ⟨other, listed, there⟩ := ih found
        exact ⟨other, List.mem_append_left _ listed, there⟩

theorem dotted_split {fragment : List Char} {object_key : String} {field_path : List String}
    (split : _split_api_config_fragment isdigit fragment = some (object_key, field_path)) :
    dotted (object_key :: field_path) = fragment := by
  rw [dotted_cons object_key (split_path_ne_nil split)]
  unfold _split_api_config_fragment at split
  dsimp only at split
  split at split
  · cases split
  · split at split
    · rename_i digits
      obtain ⟨rfl, rfl⟩ := Prod.mk.inj (Option.some.inj split)
      rw [dotted_parts, String.toList_ofList]
      -- Something follows the first part, so a dot does.
      have parted := List.takeWhile_append_dropWhile (p := fun char => decide (char ≠ '.')) (l := fragment)
      cases dropped : fragment.dropWhile (fun char => decide (char ≠ '.')) with
      | nil => exact absurd (by rw [dropped]; rfl) digits.2.2
      | cons char rest =>
        have dot := List.head_dropWhile_not (fun char => decide (char ≠ '.')) (l := fragment)
          (by rw [dropped]; exact List.cons_ne_nil _ _)
        simp only [dropped, List.head_cons, decide_eq_false_iff_not, not_not] at dot
        rw [dropped, dot] at parted
        exact parted
    · split at split
      · cases split
      · rename_i marker_index found
        split at split
        · cases split
        · obtain ⟨rfl, rfl⟩ := Prod.mk.inj (Option.some.inj split)
          rw [dotted_parts, String.toList_ofList]
          obtain ⟨field, _, there⟩ := lastMarker_found found
          obtain ⟨rest, begins⟩ := rfind_prefix there
          have dropped : fragment.drop marker_index = '.' :: fragment.drop (marker_index + 1) := by
            rw [← List.tail_drop, ← begins]
            rfl
          rw [← dropped, List.take_append_drop]

theorem dotted_slot {fragment : List Char} {path : List String}
    (slot : slotOf isdigit entry fragment = some path) : dotted path = fragment := by
  unfold slotOf at slot
  split at slot
  · obtain ⟨⟨object_key, field_path⟩, split, rfl⟩ := Option.map_eq_some_iff.mp slot
    exact dotted_split split
  · obtain rfl := Option.some.inj slot
    exact dotted_parts fragment

theorem mergeRow_cases (state : Fields × List String) (row : String × Json) :
    (mergeRow isdigit entry state row = state ∧
      ∀ fragment path, fragmentOf (prefixes entry) row.1 = some fragment →
        slotOf isdigit entry fragment = some path → Blocked entry state.1 path) ∨
    ∃ fragment path, fragmentOf (prefixes entry) row.1 = some fragment ∧
      slotOf isdigit entry fragment = some path ∧ ¬ Blocked entry state.1 path ∧
        mergeRow isdigit entry state row =
          (Json.assign state.1 path row.2, state.2 ++ [row.1]) := by
  unfold mergeRow
  cases found : fragmentOf (prefixes entry) row.1 with
  | none =>
    refine Or.inl ⟨rfl, ?_⟩
    rintro fragment path ⟨⟩
  | some fragment =>
    by_cases api : entry.1 ∈ API_CONFIG_KEYS
    · simp only [if_pos api]
      cases split : _split_api_config_fragment isdigit fragment with
      | none =>
        refine Or.inl ⟨rfl, ?_⟩
        intro other path same slot
        obtain rfl := Option.some.inj same
        rw [slotOf, if_pos api, split] at slot
        cases slot
      | some parted =>
        obtain ⟨object_key, field_path⟩ := parted
        have slot : slotOf isdigit entry fragment = some (object_key :: field_path) := by
          rw [slotOf, if_pos api, split]
          rfl
        have put : ∀ target, Json.fieldsOf (state.1.lookup object_key) = target →
            Assoc.set state.1 object_key (.obj (_assign_path target field_path row.2)) =
              Json.assign state.1 (object_key :: field_path) row.2 := by
          intro target same
          rw [assign_cons _ _ (split_path_ne_nil split), same]
          rfl
        dsimp only
        cases held : state.1.lookup object_key with
        | none =>
          refine Or.inr ⟨fragment, _, rfl, slot, ?_, ?_⟩
          · rintro ⟨_, key, value, head, there, _⟩
            obtain rfl := Option.some.inj head
            rw [held] at there
            cases there
          · rw [Option.getD_none, ← put [] (by rw [held]; rfl)]
        | some value =>
          rw [Option.getD_some]
          split
          · rename_i target
            refine Or.inr ⟨fragment, _, rfl, slot, ?_, ?_⟩
            · rintro ⟨_, key, value, head, there, leaf⟩
              obtain rfl := Option.some.inj head
              rw [held] at there
              exact leaf target (Option.some.inj there).symm
            · rw [← put target (by rw [held]; rfl)]
          · rename_i other
            refine Or.inl ⟨rfl, ?_⟩
            intro again path same taken
            obtain rfl := Option.some.inj same
            obtain rfl := Option.some.inj (slot.symm.trans taken)
            exact ⟨api, object_key, value, rfl, held, other⟩
    · have slot : slotOf isdigit entry fragment = some (parts fragment) := by
        rw [slotOf, if_neg api]
      refine Or.inr ⟨fragment, _, rfl, slot, ?_, ?_⟩
      · rintro ⟨among, _⟩
        exact api among
      · simp only [if_neg api, _assign_path]

theorem slotOf_api (api : entry.1 ∈ API_CONFIG_KEYS) {fragment : List Char} {path : List String}
    (slot : slotOf isdigit entry fragment = some path) :
    ∃ object_key field_path, path = object_key :: field_path ∧ field_path ≠ [] := by
  rw [slotOf, if_pos api] at slot
  obtain ⟨⟨object_key, field_path⟩, split, rfl⟩ := Option.map_eq_some_iff.mp slot
  exact ⟨object_key, field_path, rfl, split_path_ne_nil split⟩

theorem blocked_assign {fragment : List Char} {path query : List String} {fields : Fields}
    {value : Json} (slot : slotOf isdigit entry fragment = some path)
    (opens : ¬ Blocked entry fields path) :
    Blocked entry (Json.assign fields path value) query ↔ Blocked entry fields query := by
  by_cases api : entry.1 ∈ API_CONFIG_KEYS
  · obtain ⟨object_key, field_path, rfl, some_path⟩ := slotOf_api api slot
    rw [assign_cons fields object_key some_path]
    unfold Blocked
    refine and_congr_right ?_
    intro _
    refine exists_congr ?_
    intro key
    refine exists_congr ?_
    intro held
    rw [Assoc.lookup_set]
    refine and_congr_right ?_
    intro _
    split
    · rename_i same
      subst same
      constructor
      · rintro ⟨same, leaf⟩
        exact absurd (Option.some.inj same).symm (leaf _)
      · rintro ⟨there, leaf⟩
        exact absurd ⟨api, object_key, held, rfl, there, leaf⟩ opens
    · rfl
  · constructor
    · rintro ⟨among, _⟩
      exact absurd among api
    · rintro ⟨among, _⟩
      exact absurd among api

/-- The row of the key is taken up, with these fields at the start. -/
def Taken (isdigit : Char → Bool) (entry : String × List String) (fields : Fields) (key : String) :
    Prop :=
  ∃ fragment path, fragmentOf (prefixes entry) key = some fragment ∧
    slotOf isdigit entry fragment = some path ∧ ¬ Blocked entry fields path

theorem taken_congr {fields other : Fields}
    (same : ∀ path, Blocked entry fields path ↔ Blocked entry other path) (key : String) :
    Taken isdigit entry fields key ↔ Taken isdigit entry other key := by
  simp only [Taken, same]

theorem blocked_mergeRow (state : Fields × List String) (row : String × Json) (path : List String) :
    Blocked entry (mergeRow isdigit entry state row).1 path ↔ Blocked entry state.1 path := by
  rcases mergeRow_cases state row with ⟨same, _⟩ | ⟨fragment, slot, _, taken, opens, same⟩
  · rw [same]
  · rw [same]
    exact blocked_assign taken opens

theorem mem_incorporated {rows : List (String × Json)} {state : Fields × List String} {key : String} :
    key ∈ (rows.foldl (mergeRow isdigit entry) state).2 ↔
      key ∈ state.2 ∨ (key ∈ rows.map Prod.fst ∧ Taken isdigit entry state.1 key) := by
  induction rows generalizing state with
  | nil => simp
  | cons row rest ih =>
    rw [List.foldl_cons, ih, taken_congr (blocked_mergeRow state row), List.map_cons, List.mem_cons]
    have first : key ∈ (mergeRow isdigit entry state row).2 ↔
        key ∈ state.2 ∨ (key = row.1 ∧ Taken isdigit entry state.1 key) := by
      rcases mergeRow_cases state row with ⟨same, blocked⟩ | ⟨fragment, slot, found, taken, opens, same⟩
      · rw [same]
        refine (or_iff_left ?_).symm
        rintro ⟨rfl, fragment, path, found, slot, opens⟩
        exact opens (blocked fragment path found slot)
      · rw [same, List.mem_append, List.mem_singleton]
        refine or_congr_right (iff_self_and.mpr ?_)
        rintro rfl
        exact ⟨fragment, slot, found, taken, opens⟩
    rw [first]
    constructor
    · rintro ((old | ⟨same, taken⟩) | ⟨later, taken⟩)
      · exact Or.inl old
      · exact Or.inr ⟨Or.inl same, taken⟩
      · exact Or.inr ⟨Or.inr later, taken⟩
    · rintro (old | ⟨same | later, taken⟩)
      · exact Or.inl (Or.inl old)
      · exact Or.inl (Or.inr ⟨same, taken⟩)
      · exact Or.inr ⟨later, taken⟩

/-- The row is put at this path, or at one that neither begins nor goes on with it. -/
def Apart (isdigit : Char → Bool) (entry : String × List String) (path : List String) (value : Json)
    (row : String × Json) : Prop :=
  ∀ fragment slot, fragmentOf (prefixes entry) row.1 = some fragment →
    slotOf isdigit entry fragment = some slot →
      (slot = path ∧ row.2 = value) ∨ (¬ path <+: slot ∧ ¬ slot <+: path)

theorem atPath_mergeRow {path : List String} {value : Json} {row : String × Json}
    (apart : Apart isdigit entry path value row) {state : Fields × List String}
    (held : atPath path (.obj state.1) = some value) :
    atPath path (.obj (mergeRow isdigit entry state row).1) = some value := by
  rcases mergeRow_cases state row with ⟨same, _⟩ | ⟨fragment, slot, found, taken, _, same⟩
  · rw [same]
    exact held
  · rw [same]
    rcases apart fragment slot found taken with ⟨rfl, rfl⟩ | ⟨before, after⟩
    · exact Json.atPath_assign_self state.1 (slotOf_ne_nil taken) row.2
    · rw [Json.atPath_assign_other state.1 before after]
      exact held

theorem atPath_foldl_mergeRow {path : List String} {value : Json} {rows : List (String × Json)}
    (apart : ∀ row ∈ rows, Apart isdigit entry path value row) {state : Fields × List String}
    (held : atPath path (.obj state.1) = some value) :
    atPath path (.obj (rows.foldl (mergeRow isdigit entry) state).1) = some value := by
  induction rows generalizing state with
  | nil => exact held
  | cons row rest ih =>
    apply ih (fun other member => apart other (List.mem_cons_of_mem _ member))
    exact atPath_mergeRow (apart row List.mem_cons_self) held

theorem atPath_of_taken {path : List String} {value : Json} {rows : List (String × Json)}
    (apart : ∀ row ∈ rows, Apart isdigit entry path value row) {state : Fields × List String}
    {key : String} {fragment : List Char} (member : (key, value) ∈ rows)
    (found : fragmentOf (prefixes entry) key = some fragment)
    (slot : slotOf isdigit entry fragment = some path) (opens : ¬ Blocked entry state.1 path) :
    atPath path (.obj (rows.foldl (mergeRow isdigit entry) state).1) = some value := by
  induction rows generalizing state with
  | nil => cases member
  | cons row rest ih =>
    have later := fun other member => apart other (List.mem_cons_of_mem row member)
    rw [List.foldl_cons]
    rcases List.mem_cons.mp member with rfl | remains
    · apply atPath_foldl_mergeRow later
      rcases mergeRow_cases state (key, value) with ⟨_, blocked⟩ | ⟨again, place, there, taken, _, same⟩
      · exact absurd (blocked fragment path found slot) opens
      · obtain rfl := Option.some.inj (found.symm.trans there)
        obtain rfl := Option.some.inj (slot.symm.trans taken)
        rw [same]
        exact Json.atPath_assign_self state.1 (slotOf_ne_nil slot) value
    · apply ih later remains
      rw [blocked_mergeRow]
      exact opens

theorem slot_of_atPath {rows : List (String × Json)} (leaves : ∀ row ∈ rows, ∀ fragment,
      fragmentOf (prefixes entry) row.1 = some fragment → Leaf row.2)
    {state : Fields × List String} {path : List String} {value : Json} (leaf : Leaf value)
    (held : atPath path (.obj (rows.foldl (mergeRow isdigit entry) state).1) = some value) :
    atPath path (.obj state.1) = some value ∨ ∃ row ∈ rows, ∃ fragment,
      fragmentOf (prefixes entry) row.1 = some fragment ∧
        slotOf isdigit entry fragment = some path := by
  induction rows generalizing state with
  | nil => exact Or.inl held
  | cons row rest ih =>
    rcases ih (fun other member => leaves other (List.mem_cons_of_mem _ member)) held with
      before | ⟨other, member, origin⟩
    · rcases mergeRow_cases state row with ⟨same, _⟩ | ⟨fragment, slot, found, taken, _, same⟩
      · rw [same] at before
        exact Or.inl before
      · rw [same] at before
        rcases Json.eq_or_atPath_of_assign (slotOf_ne_nil taken)
          (leaves row List.mem_cons_self fragment found) leaf before with rfl | old
        · exact Or.inr ⟨row, List.mem_cons_self, fragment, found, taken⟩
        · exact Or.inl old
    · exact Or.inr ⟨other, List.mem_cons_of_mem _ member, origin⟩

end OpenWebui.Config
