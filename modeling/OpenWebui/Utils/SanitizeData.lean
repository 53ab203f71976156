import Mathlib.Data.List.Infix
import OpenWebui.Base.Dict

/-! `sanitize_data_for_db`: null characters and surrogates are taken out of the strings and keys of a
value, unless a look at its JSON text shows that there are none. -/

namespace OpenWebui.SanitizeData

universe u

abbrev Text := List Nat

inductive Data (ν : Type u) where
  | null
  | bool (value : Bool)
  | num (value : ν)
  | str (text : Text)
  | list (items : List (Data ν))
  | dict (entries : List (Text × Data ν))

variable {ν : Type u}

def surrogate (char : Nat) : Bool := decide (0xD800 ≤ char) && decide (char ≤ 0xDFFF)

/-- `SURROGATE_RE.search(text)`. -/
def hasSurrogate (text : Text) : Bool := text.any surrogate

def sanitize_text_for_db (text : Text) : Text :=
  if 0 ∉ text ∧ hasSurrogate text = false then text
  else (text.filter (fun char => decide (char ≠ 0))).filter (fun char => !surrogate char)

mutual

def strip_null_bytes_deep : Data ν → Data ν
  | .str text => .str (sanitize_text_for_db text)
  | .dict entries =>
    .dict ((stripEntries entries).foldl (fun cleaned entry => cleaned.set entry.1 entry.2) Dict.empty).entries
  | .list items => .list (stripItems items)
  | .null => .null
  | .bool value => .bool value
  | .num value => .num value

def stripItems : List (Data ν) → List (Data ν)
  | [] => []
  | item :: rest => strip_null_bytes_deep item :: stripItems rest

def stripEntries : List (Text × Data ν) → List (Text × Data ν)
  | [] => []
  | (key, value) :: rest => (sanitize_text_for_db key, strip_null_bytes_deep value) :: stripEntries rest

end

def ascii (text : String) : Text := text.toList.map Char.toNat

def hexDigit (digit : Nat) : Nat := if digit < 10 then 48 + digit else 87 + digit

def escapeChar (char : Nat) : Text :=
  if char = 34 then ascii "\\\""
  else if char = 92 then ascii "\\\\"
  else if char = 8 then ascii "\\b"
  else if char = 12 then ascii "\\f"
  else if char = 10 then ascii "\\n"
  else if char = 13 then ascii "\\r"
  else if char = 9 then ascii "\\t"
  else if char < 32 then ascii "\\u00" ++ [hexDigit (char / 16), hexDigit (char % 16)]
  else [char]

def quoted (text : Text) : Text := 34 :: (text.flatMap escapeChar ++ [34])

section Serialized

variable (numeral : ν → Text)

mutual

/-- `json.dumps(obj, ensure_ascii=False)`. -/
def dumps : Data ν → Text
  | .null => ascii "null"
  | .bool value => if value then ascii "true" else ascii "false"
  | .num value => numeral value
  | .str text => quoted text
  | .list items => 91 :: (dumpsItems items ++ [93])
  | .dict entries => 123 :: (dumpsEntries entries ++ [125])

def dumpsItems : List (Data ν) → Text
  | [] => []
  | [item] => dumps item
  | item :: second :: rest => dumps item ++ (ascii ", " ++ dumpsItems (second :: rest))

def dumpsEntries : List (Text × Data ν) → Text
  | [] => []
  | [(key, value)] => quoted key ++ (ascii ": " ++ dumps value)
  | (key, value) :: second :: rest =>
    quoted key ++ (ascii ": " ++ (dumps value ++ (ascii ", " ++ dumpsEntries (second :: rest))))

end

def looksClean (data : Data ν) : Bool :=
  decide (¬ ascii "\\u0000" <:+: dumps numeral data) && !hasSurrogate (dumps numeral data)

def sanitize_data_for_db (data : Data ν) : Data ν :=
  match data with
  | .str text => .str (sanitize_text_for_db text)
  | other => if looksClean numeral other then other else strip_null_bytes_deep other

end Serialized

mutual

def Data.texts : Data ν → List Text
  | .str text => [text]
  | .list items => textsOfItems items
  | .dict entries => textsOfEntries entries
  | .null | .bool _ | .num _ => []

def textsOfItems : List (Data ν) → List Text
  | [] => []
  | item :: rest => item.texts ++ textsOfItems rest

def textsOfEntries : List (Text × Data ν) → List Text
  | [] => []
  | (key, value) :: rest => key :: (value.texts ++ textsOfEntries rest)

end

mutual

/-- No dictionary has a key twice. -/
def Data.Unique : Data ν → Prop
  | .list items => uniqueItems items
  | .dict entries => (Assoc.keys entries).Nodup ∧ uniqueEntries entries
  | .str _ | .null | .bool _ | .num _ => True

def uniqueItems : List (Data ν) → Prop
  | [] => True
  | item :: rest => item.Unique ∧ uniqueItems rest

def uniqueEntries : List (Text × Data ν) → Prop
  | [] => True
  | (_, value) :: rest => value.Unique ∧ uniqueEntries rest

end

structure JsonData (ν : Type u) where
  data : Data ν
  unique : data.Unique

/-- Neither null nor a surrogate. -/
def Storable (text : Text) : Prop := ∀ char ∈ text, char ≠ 0 ∧ surrogate char = false

def Data.Storable (data : Data ν) : Prop := ∀ text ∈ data.texts, SanitizeData.Storable text

@[elab_as_elim]
theorem Data.parts {motive : Data ν → Prop} (null : motive .null) (bool : ∀ value, motive (.bool value))
    (num : ∀ value, motive (.num value)) (str : ∀ text, motive (.str text))
    (list : ∀ items, (∀ item ∈ items, motive item) → motive (.list items))
    (dict : ∀ entries, (∀ entry ∈ entries, motive entry.2) → motive (.dict entries)) (data : Data ν) :
    motive data :=
  @Data.rec ν motive (fun items => ∀ item ∈ items, motive item)
    (fun entries => ∀ entry ∈ entries, motive entry.2) (fun entry => motive entry.2) null bool num str list dict
    (fun _ member => by cases member)
    (fun _ _ first later item member => by
      rcases List.mem_cons.mp member with rfl | member
      · exact first
      · exact later item member)
    (fun _ member => by cases member)
    (fun _ _ first later entry member => by
      rcases List.mem_cons.mp member with rfl | member
      · exact first
      · exact later entry member)
    (fun _ _ held => held) data

theorem stripItems_eq (items : List (Data ν)) : stripItems items = items.map strip_null_bytes_deep := by
  induction items with
  | nil => rfl
  | cons item rest ih => rw [stripItems, ih, List.map_cons]

theorem stripEntries_eq (entries : List (Text × Data ν)) : stripEntries entries =
    entries.map (fun entry => (sanitize_text_for_db entry.1, strip_null_bytes_deep entry.2)) := by
  induction entries with
  | nil => rfl
  | cons entry rest ih => rw [stripEntries, ih, List.map_cons]

theorem textsOfItems_eq (items : List (Data ν)) : textsOfItems items = items.flatMap Data.texts := by
  induction items with
  | nil => rfl
  | cons item rest ih => rw [textsOfItems, ih, List.flatMap_cons]

theorem textsOfEntries_eq (entries : List (Text × Data ν)) :
    textsOfEntries entries = entries.flatMap (fun entry => entry.1 :: entry.2.texts) := by
  induction entries with
  | nil => rfl
  | cons entry rest ih => rw [textsOfEntries, ih, List.flatMap_cons, List.cons_append]

theorem uniqueItems_iff (items : List (Data ν)) : uniqueItems items ↔ ∀ item ∈ items, item.Unique := by
  induction items with
  | nil => simp [uniqueItems]
  | cons item rest ih => rw [uniqueItems, ih, List.forall_mem_cons]

theorem uniqueEntries_iff (entries : List (Text × Data ν)) :
    uniqueEntries entries ↔ ∀ entry ∈ entries, entry.2.Unique := by
  induction entries with
  | nil => simp [uniqueEntries]
  | cons entry rest ih => rw [uniqueEntries, ih, List.forall_mem_cons]

theorem hasSurrogate_eq_false {text : Text} :
    hasSurrogate text = false ↔ ∀ char ∈ text, surrogate char = false := by
  simp [hasSurrogate]

theorem sanitize_text_of_storable {text : Text} (storable : Storable text) :
    sanitize_text_for_db text = text := by
  refine if_pos ⟨fun null => (storable 0 null).1 rfl, ?_⟩
  exact hasSurrogate_eq_false.mpr (fun char member => (storable char member).2)

theorem storable_sanitize_text (text : Text) : Storable (sanitize_text_for_db text) := by
  intro char member
  rw [sanitize_text_for_db] at member
  split at member
  · rename_i clean
    exact ⟨fun null => clean.1 (null ▸ member), hasSurrogate_eq_false.mp clean.2 char member⟩
  · obtain ⟨kept, plain⟩ := List.mem_filter.mp member
    exact ⟨of_decide_eq_true (List.mem_filter.mp kept).2, by simpa using plain⟩

theorem mem_cleaned {entries : List (Text × Data ν)} {entry : Text × Data ν}
    (member : entry ∈ (entries.foldl (fun cleaned entry => cleaned.set entry.1 entry.2)
      (Dict.empty : Dict Text (Data ν))).entries) : entry ∈ entries := by
  have found := Dict.mem_entries_iff.mp (show (entry.1, entry.2) ∈ _ from member)
  rw [Dict.get?_foldl_set, Dict.get?_empty, Option.or_none, Option.map_eq_some_iff] at found
  obtain ⟨other, first, value⟩ := found
  have key : other.1 = entry.1 := by simpa using List.find?_some first
  rw [← Prod.ext key value]
  exact List.mem_reverse.mp (List.mem_of_find?_eq_some first)

theorem storable_strip (data : Data ν) : (strip_null_bytes_deep data).Storable := by
  induction data using Data.parts with
  | null => exact fun text member => by cases member
  | bool value => exact fun text member => by cases member
  | num value => exact fun text member => by cases member
  | str text =>
    intro other member
    rw [strip_null_bytes_deep, Data.texts, List.mem_singleton] at member
    exact member ▸ storable_sanitize_text text
  | list items ih =>
    intro text member
    rw [strip_null_bytes_deep, Data.texts, textsOfItems_eq, stripItems_eq, List.mem_flatMap] at member
    obtain ⟨_, made, inside⟩ := member
    obtain ⟨item, listed, rfl⟩ := List.mem_map.mp made
    exact ih item listed text inside
  | dict entries ih =>
    intro text member
    rw [strip_null_bytes_deep, Data.texts, textsOfEntries_eq, List.mem_flatMap] at member
    obtain ⟨_, set, inside⟩ := member
    have made := mem_cleaned set
    rw [stripEntries_eq] at made
    obtain ⟨entry, listed, rfl⟩ := List.mem_map.mp made
    rcases List.mem_cons.mp inside with rfl | inside
    · exact storable_sanitize_text entry.1
    · exact ih entry listed text inside

theorem unique_strip (data : Data ν) : (strip_null_bytes_deep data).Unique := by
  induction data using Data.parts with
  | list items ih =>
    rw [strip_null_bytes_deep, Data.Unique, uniqueItems_iff, stripItems_eq]
    intro _ made
    obtain ⟨item, listed, rfl⟩ := List.mem_map.mp made
    exact ih item listed
  | dict entries ih =>
    rw [strip_null_bytes_deep, Data.Unique, uniqueEntries_iff]
    refine ⟨Dict.keys_nodup _, fun _ set => ?_⟩
    have made := mem_cleaned set
    rw [stripEntries_eq] at made
    obtain ⟨entry, listed, rfl⟩ := List.mem_map.mp made
    exact ih entry listed
  | _ => trivial

theorem strip_of_storable {data : Data ν} (unique : data.Unique) (storable : data.Storable) :
    strip_null_bytes_deep data = data := by
  induction data using Data.parts with
  | str text => rw [strip_null_bytes_deep, sanitize_text_of_storable (storable text List.mem_cons_self)]
  | list items ih =>
    rw [Data.Unique, uniqueItems_iff] at unique
    rw [Data.Storable, Data.texts, textsOfItems_eq] at storable
    rw [strip_null_bytes_deep, stripItems_eq]
    have same : ∀ item ∈ items, strip_null_bytes_deep item = item := fun item listed =>
      ih item listed (unique item listed)
        (fun text inside => storable text (List.mem_flatMap.mpr ⟨item, listed, inside⟩))
    rw [List.map_congr_left same, List.map_id']
  | dict entries ih =>
    rw [Data.Unique, uniqueEntries_iff] at unique
    rw [Data.Storable, Data.texts, textsOfEntries_eq] at storable
    have same : ∀ entry ∈ entries,
        (sanitize_text_for_db entry.1, strip_null_bytes_deep entry.2) = entry := by
      intro entry listed
      have within : ∀ text ∈ entry.1 :: entry.2.texts, Storable text := fun text inside =>
        storable text (List.mem_flatMap.mpr ⟨entry, listed, inside⟩)
      rw [sanitize_text_of_storable (within _ List.mem_cons_self), ih entry listed
        (unique.2 entry listed) (fun text inside => within text (List.mem_cons_of_mem _ inside))]
    rw [strip_null_bytes_deep, stripEntries_eq, List.map_congr_left same, List.map_id',
      Dict.entries_foldl_set unique.1 _ (fun entry _ absent => by cases absent)]
    simp [Dict.empty]
  | _ => rfl

theorem infix_flatMap {text : Text} {char : Nat} (member : char ∈ text) :
    escapeChar char <:+: text.flatMap escapeChar := by
  obtain ⟨before, after, rfl⟩ := List.append_of_mem member
  exact ⟨before.flatMap escapeChar, after.flatMap escapeChar, by simp⟩

theorem infix_dumpsItems {numeral : ν → Text} {items : List (Data ν)} {item : Data ν}
    (listed : item ∈ items) : dumps numeral item <:+: dumpsItems numeral items := by
  induction items with
  | nil => cases listed
  | cons first rest ih =>
    cases rest with
    | nil =>
      obtain rfl := List.mem_singleton.mp listed
      exact List.infix_rfl
    | cons second others =>
      rw [dumpsItems]
      rcases List.mem_cons.mp listed with rfl | later
      · exact (List.prefix_append _ _).isInfix
      · exact ((ih later).trans (List.suffix_append _ _).isInfix).trans (List.suffix_append _ _).isInfix

theorem infix_dumpsEntries {numeral : ν → Text} {entries : List (Text × Data ν)} {entry : Text × Data ν}
    (listed : entry ∈ entries) : quoted entry.1 <:+: dumpsEntries numeral entries ∧
      dumps numeral entry.2 <:+: dumpsEntries numeral entries := by
  induction entries with
  | nil => cases listed
  | cons first rest ih =>
    cases rest with
    | nil =>
      rw [List.mem_singleton.mp listed, dumpsEntries]
      exact ⟨(List.prefix_append _ _).isInfix,
        (List.suffix_append _ _).isInfix.trans (List.suffix_append _ _).isInfix⟩
    | cons second others =>
      rw [dumpsEntries]
      have behind : dumpsEntries numeral (second :: others) <:+:
          quoted first.1 ++ (ascii ": " ++ (dumps numeral first.2 ++ (ascii ", " ++
            dumpsEntries numeral (second :: others)))) :=
        (((List.suffix_append _ _).trans (List.suffix_append _ _)).trans
          ((List.suffix_append _ _).trans (List.suffix_append _ _))).isInfix
      rcases List.mem_cons.mp listed with rfl | later
      · refine ⟨(List.prefix_append _ _).isInfix, ?_⟩
        exact (List.prefix_append _ _).isInfix.trans
          ((List.suffix_append _ _).trans (List.suffix_append _ _)).isInfix
      · exact ⟨(ih later).1.trans behind, (ih later).2.trans behind⟩

theorem infix_dumps {numeral : ν → Text} {data : Data ν} {text : Text} (member : text ∈ data.texts) :
    text.flatMap escapeChar <:+: dumps numeral data := by
  have in_quotes : ∀ text : Text, text.flatMap escapeChar <:+: quoted text := fun text =>
    ⟨[34], [34], by simp [quoted]⟩
  have in_brackets : ∀ (first last : Nat) (inner : Text), inner <:+: first :: (inner ++ [last]) :=
    fun first last inner => ⟨[first], [last], by simp⟩
  induction data using Data.parts with
  | str other =>
    rw [Data.texts, List.mem_singleton] at member
    rw [member, dumps]
    exact in_quotes other
  | list items ih =>
    rw [Data.texts, textsOfItems_eq, List.mem_flatMap] at member
    obtain ⟨item, listed, inside⟩ := member
    rw [dumps]
    exact ((ih item listed inside).trans (infix_dumpsItems listed)).trans (in_brackets _ _ _)
  | dict entries ih =>
    rw [Data.texts, textsOfEntries_eq, List.mem_flatMap] at member
    obtain ⟨entry, listed, inside⟩ := member
    rw [dumps]
    refine List.IsInfix.trans ?_ (in_brackets _ _ _)
    rcases List.mem_cons.mp inside with rfl | inside
    · exact (in_quotes _).trans (infix_dumpsEntries listed).1
    · exact (ih entry listed inside).trans (infix_dumpsEntries listed).2
  | _ => cases member

theorem escapeChar_surrogate {char : Nat} (found : surrogate char = true) : escapeChar char = [char] := by
  rw [surrogate, Bool.and_eq_true, decide_eq_true_eq, decide_eq_true_eq] at found
  rw [escapeChar, if_neg (by omega), if_neg (by omega), if_neg (by omega), if_neg (by omega),
    if_neg (by omega), if_neg (by omega), if_neg (by omega), if_neg (by omega)]

theorem storable_of_looksClean {numeral : ν → Text} {data : Data ν}
    (clean : looksClean numeral data = true) : data.Storable := by
  rw [looksClean, Bool.and_eq_true, decide_eq_true_eq, Bool.not_eq_true'] at clean
  intro text member char inside
  have shown := (infix_flatMap inside).trans (@infix_dumps _ numeral _ _ member)
  constructor
  · rintro rfl
    exact clean.1 shown
  · cases found : surrogate char with
    | false => rfl
    | true =>
      rw [escapeChar_surrogate found] at shown
      have plain := hasSurrogate_eq_false.mp clean.2 char (shown.subset List.mem_cons_self)
      rw [found] at plain
      cases plain

/-- What is stored is what the walk makes of the value; the short way is taken only where there is
nothing to do, nothing is left of what cannot be stored, and a second time changes nothing. -/
structure Sanitized (numeral : ν → Text) (data : Data ν) : Prop where
  walked : sanitize_data_for_db numeral data = strip_null_bytes_deep data
  untouched : looksClean numeral data = true → data.Storable
  storable : (sanitize_data_for_db numeral data).Storable
  again : sanitize_data_for_db numeral (sanitize_data_for_db numeral data) = sanitize_data_for_db numeral data

theorem sanitize_eq_strip (numeral : ν → Text) {data : Data ν} (unique : data.Unique) :
    sanitize_data_for_db numeral data = strip_null_bytes_deep data := by
  have short : ∀ data : Data ν, data.Unique →
      (if looksClean numeral data then data else strip_null_bytes_deep data) = strip_null_bytes_deep data := by
    intro data unique
    split
    · rename_i clean
      exact (strip_of_storable unique (storable_of_looksClean clean)).symm
    · rfl
  cases data with
  | str text => rfl
  | _ => exact short _ unique

theorem sanitize_data_for_db_sanitizes (numeral : ν → Text) (value : JsonData ν) :
    Sanitized numeral value.data := by
  have walked := sanitize_eq_strip numeral value.unique
  refine ⟨walked, storable_of_looksClean, ?_, ?_⟩
  · rw [walked]
    exact storable_strip value.data
  · rw [walked, sanitize_eq_strip numeral (unique_strip value.data)]
    exact strip_of_storable (unique_strip value.data) (storable_strip value.data)

end OpenWebui.SanitizeData
