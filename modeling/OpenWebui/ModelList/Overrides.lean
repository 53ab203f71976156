import Mathlib.Data.List.Induction
import OpenWebui.ModelList.Listing

/-! Which dictionary a workspace row's id leads to, stated on the list alone. -/

namespace OpenWebui

namespace ModelList

variable {models : List ModelDict} {key : String} {place : Nat}

/-- The dictionary a key is looked up to: the last one of exactly that id or, when
none has it, the first of Ollama's whose id is the key up to its tag. -/
inductive Addressed (models : List ModelDict) (key : String) (place : Nat) : Prop
  | exact (model : ModelDict) (found : models[place]? = some model) (same : model.id = key)
      (last : ∀ later other, place < later → models[later]? = some other → other.id ≠ key)
  | tagged (model : ModelDict) (found : models[place]? = some model)
      (ollama : model.owned_by = "ollama") (named : base_name model.id = key)
      (absent : ∀ other ∈ models, other.id ≠ key)
      (first : ∀ earlier other, earlier < place → models[earlier]? = some other →
        other.owned_by = "ollama" → base_name other.id ≠ key)

/-- The key names the dictionary: by its id or, for Ollama, by its id up to the tag. -/
def Named (key : String) (model : ModelDict) : Prop :=
  model.id = key ∨ (model.owned_by = "ollama" ∧ base_name model.id = key)

theorem Addressed.exists_model (addressed : Addressed models key place) :
    ∃ model, models[place]? = some model ∧ Named key model := by
  cases addressed with
  | exact model found same => exact ⟨model, found, .inl same⟩
  | tagged model found ollama named => exact ⟨model, found, .inr ⟨ollama, named⟩⟩

theorem Addressed.lt (addressed : Addressed models key place) : place < models.length := by
  obtain ⟨model, found, _⟩ := addressed.exists_model
  exact (List.getElem?_eq_some_iff.mp found).1

theorem Addressed.unique {other : Nat} (first : Addressed models key place)
    (second : Addressed models key other) : place = other := by
  cases first with
  | exact model found same last =>
    cases second with
    | exact model' found' same' last' =>
      rcases Nat.lt_trichotomy place other with before | equal | after
      · exact absurd same' (last other model' before found')
      · exact equal
      · exact absurd same (last' place model after found)
    | tagged model' found' ollama named absent =>
      exact absurd same (absent model (List.mem_of_getElem? found))
  | tagged model found ollama named absent earliest =>
    cases second with
    | exact model' found' same' last' =>
      exact absurd same' (absent model' (List.mem_of_getElem? found'))
    | tagged model' found' ollama' named' absent' earliest' =>
      rcases Nat.lt_trichotomy place other with before | equal | after
      · exact absurd named (earliest' place model before found ollama)
      · exact equal
      · exact absurd named' (earliest other model' after found' ollama')

theorem get?_lookup_append (models : List ModelDict) (model : ModelDict) (key : String) :
    (base_model_lookup (models ++ [model])).get? key =
      if model.id = key then some models.length
      else if (model.owned_by = "ollama" ∧ ((base_model_lookup models).get? key).isNone) ∧
        base_name model.id = key then some models.length
      else (base_model_lookup models).get? key := by
  simp only [base_model_lookup, List.zipIdx_append, List.zipIdx_singleton, List.foldl_append,
    List.foldl_cons, List.foldl_nil, Nat.zero_add, Dict.get?_set]
  split
  · rfl
  · by_cases named : base_name model.id = key
    · subst named
      split <;> simp_all
    · split <;> simp [named]

theorem not_named_of_lookup (missing : (base_model_lookup models).get? key = none) :
    ∀ model ∈ models, ¬ Named key model := by
  induction models using List.reverseRecOn with
  | nil => simp
  | append_singleton models model ih =>
    rw [get?_lookup_append] at missing
    split at missing
    · cases missing
    · rename_i different
      split at missing
      · cases missing
      · rename_i untagged
        intro other member
        rcases List.mem_append.mp member with member | member
        · exact ih missing other member
        · obtain rfl := List.mem_singleton.mp member
          rintro (same | ⟨ollama, named⟩)
          · exact different same
          · exact untagged ⟨⟨ollama, by rw [missing]; rfl⟩, named⟩

theorem addressed_of_lookup (found : (base_model_lookup models).get? key = some place) :
    Addressed models key place := by
  induction models using List.reverseRecOn with
  | nil => simp [base_model_lookup] at found
  | append_singleton models model ih =>
    rw [get?_lookup_append] at found
    have here : (models ++ [model])[models.length]? = some model := by simp
    split at found
    · rename_i same
      obtain rfl := Option.some.inj found
      refine .exact model here same ?_
      intro later other after present
      have bound := (List.getElem?_eq_some_iff.mp present).1
      simp only [List.length_append, List.length_singleton] at bound
      omega
    · rename_i different
      split at found
      · rename_i tagged
        obtain ⟨⟨ollama, missing⟩, named⟩ := tagged
        obtain rfl := Option.some.inj found
        have unnamed := not_named_of_lookup (Option.isNone_iff_eq_none.mp missing)
        refine .tagged model here ollama named ?_ ?_
        · intro other member same
          rcases List.mem_append.mp member with member | member
          · exact unnamed other member (.inl same)
          · obtain rfl := List.mem_singleton.mp member
            exact different same
        · intro earlier other before present ollama' named'
          rw [List.getElem?_append_left before] at present
          exact unnamed other (List.mem_of_getElem? present) (.inr ⟨ollama', named'⟩)
      · have before := ih found
        have bound := before.lt
        have kept := @List.getElem?_append_left _ _ [model] _ bound
        cases before with
        | exact holder present same last =>
          refine .exact holder (kept.trans present) same ?_
          intro later other after present'
          rcases Nat.lt_or_ge later models.length with inside | outside
          · rw [List.getElem?_append_left inside] at present'
            exact last later other after present'
          · rw [List.getElem?_append_right outside] at present'
            obtain rfl := List.mem_singleton.mp (List.mem_of_getElem? present')
            exact different
        | tagged holder present ollama named absent first =>
          refine .tagged holder (kept.trans present) ollama named ?_ ?_
          · intro other member
            rcases List.mem_append.mp member with member | member
            · exact absent other member
            · obtain rfl := List.mem_singleton.mp member
              exact different
          · intro earlier other before' present'
            rw [List.getElem?_append_left (Nat.lt_trans before' bound)] at present'
            exact first earlier other before' present'

theorem lookup_iff : (base_model_lookup models).get? key = some place ↔
    Addressed models key place := by
  constructor
  · exact addressed_of_lookup
  · intro addressed
    cases found : (base_model_lookup models).get? key with
    | none =>
      obtain ⟨model, present, named⟩ := addressed.exists_model
      exact absurd named (not_named_of_lookup found model (List.mem_of_getElem? present))
    | some other => rw [addressed.unique (addressed_of_lookup found)]

def ModelRow.hides (row : ModelRow) : Bool := row.base_model_id.isNone && !row.is_active

def ModelRow.overrides (row : ModelRow) : Bool := row.base_model_id.isNone && row.is_active

def ModelRow.is_preset (row : ModelRow) : Bool := row.base_model_id.isSome && row.is_active

instance (models : List ModelDict) (key : String) (place : Nat) :
    Decidable (Addressed models key place) :=
  decidable_of_iff _ lookup_iff

variable {plugins : Bool} {models : List ModelDict}

/-- Plugins are off, or the row's action and filter ids can be iterated over. -/
def Readable (plugins : Bool) (row : ModelRow) : Prop :=
  (∃ ids, function_ids plugins row "actionIds" = .ok ids) ∧
    ∃ ids, function_ids plugins row "filterIds" = .ok ids

/-- What a row that is applied does to the list. -/
inductive RowStep (plugins : Bool) (models : List ModelDict) (listing : Listing) (row : ModelRow) :
    Listing → Prop
  | unmatched (override : row.base_model_id = none)
      (missing : ∀ place, ¬ Addressed models row.id place) :
      RowStep plugins models listing row listing
  | unused (preset : row.base_model_id.isSome)
      (skipped : row.is_active = false ∨ row.id ∈ models.map ModelDict.id) :
      RowStep plugins models listing row listing
  | overridden (place : Nat) (action_ids filter_ids : List Json) (kind : row.overrides = true)
      (readable : Readable plugins row) (addressed : Addressed models row.id place) :
      RowStep plugins models listing row
        { listing with objects := listing.objects.modify place (row.override action_ids filter_ids) }
  | hidden (place gone : Nat) (kind : row.hides = true) (addressed : Addressed models row.id place)
      (member : gone ∈ listing.models)
      (alike : gone = place ∨ ∃ first second, listing.objects[gone]? = some first ∧
        listing.objects[place]? = some second ∧ first.equal second = true) :
      RowStep plugins models listing row { listing with models := listing.models.erase gone }
  | appended (dict : ModelDict) (kind : row.is_preset = true) (readable : Readable plugins row)
      (fresh : row.id ∉ models.map ModelDict.id) (named : dict.id = row.id)
      (own : dict.info_shared = false) :
      RowStep plugins models listing row
        { objects := listing.objects ++ [dict], models := listing.models ++ [listing.objects.length] }

theorem remove_ok {listing next : Listing} {place : Nat} (done : listing.remove place = .ok next) :
    ∃ gone ∈ listing.models, next = { listing with models := listing.models.erase gone } ∧
      (gone = place ∨ ∃ first second, listing.objects[gone]? = some first ∧
        listing.objects[place]? = some second ∧ first.equal second = true) := by
  unfold Listing.remove at done
  extract_lets found at done
  split at done
  · rename_i some_found
    obtain ⟨gone, before, after, skipped, here, split, erased⟩ :=
      List.exists_of_eraseP (List.any_eq_true.mp some_found).choose_spec.1
        (List.any_eq_true.mp some_found).choose_spec.2
    refine ⟨gone, by rw [split]; simp, ?_, ?_⟩
    · obtain rfl := Except.ok.inj done
      have outside : gone ∉ before := fun inside => skipped gone inside here
      rw [erased, split, List.erase_append_right _ outside, List.erase_cons_head]
    · rcases Bool.or_eq_true_iff.mp here with same | equal
      · exact .inl (of_decide_eq_true same)
      · right
        split at equal
        · rename_i first second present present'
          exact ⟨first, second, present, present', equal⟩
        · cases equal
  · cases done

theorem remove_of_alike {listing : Listing} {place gone : Nat} (member : gone ∈ listing.models)
    (alike : gone = place ∨ ∃ first second, listing.objects[gone]? = some first ∧
      listing.objects[place]? = some second ∧ first.equal second = true) :
    ∃ next, listing.remove place = .ok next := by
  unfold Listing.remove
  extract_lets found
  have any : listing.models.any found = true := by
    refine List.any_eq_true.mpr ⟨gone, member, ?_⟩
    rcases alike with rfl | ⟨first, second, present, present', equal⟩
    · simp [found]
    · simp [found, present, present', equal]
  exact ⟨_, if_pos any⟩

theorem apply_row_cases {listing next : Listing} {row : ModelRow}
    (done : apply_row plugins (base_model_lookup models) (models.map ModelDict.id) listing row =
      .ok next) : RowStep plugins models listing row next := by
  unfold apply_row at done
  cases base : row.base_model_id with
  | none =>
    simp only [base] at done
    cases target : (base_model_lookup models).get? row.id with
    | none =>
      simp only [target] at done
      obtain rfl := Except.ok.inj done
      refine .unmatched base (fun place addressed => ?_)
      rw [lookup_iff.mpr addressed] at target
      cases target
    | some place =>
      simp only [target] at done
      have addressed := lookup_iff.mp target
      by_cases active : row.is_active = true
      · rw [if_pos active] at done
        obtain ⟨action_ids, actions, done⟩ := bind_eq_ok.mp done
        obtain ⟨filter_ids, filters, done⟩ := bind_eq_ok.mp done
        obtain rfl := Except.ok.inj done
        exact .overridden place action_ids filter_ids (by simp [ModelRow.overrides, base, active])
          ⟨⟨_, actions⟩, ⟨_, filters⟩⟩ addressed
      · rw [if_neg active] at done
        obtain ⟨gone, member, rfl, alike⟩ := remove_ok done
        exact .hidden place gone (by simp [ModelRow.hides, base, active]) addressed member alike
  | some base_id =>
    simp only [base] at done
    by_cases skipped : row.is_active = false ∨ row.id ∈ models.map ModelDict.id
    · rw [if_pos skipped] at done
      obtain rfl := Except.ok.inj done
      exact .unused (by rw [base]; rfl) skipped
    · rw [if_neg skipped] at done
      obtain ⟨action_ids, actions, done⟩ := bind_eq_ok.mp done
      obtain ⟨filter_ids, filters, done⟩ := bind_eq_ok.mp done
      obtain rfl := Except.ok.inj done
      obtain ⟨active, fresh⟩ := not_or.mp skipped
      exact .appended _ (by simp [ModelRow.is_preset, base, active]) ⟨⟨_, actions⟩, ⟨_, filters⟩⟩
        fresh rfl rfl

def last_name (models : List ModelDict) (rows : List ModelRow) (place : Nat) (name : String) :
    String :=
  ((rows.filter (fun row => row.overrides && decide (Addressed models row.id place))).getLast?.map
    ModelRow.name).getD name

/-- What holds of the dictionaries after any number of rows. -/
structure Kept (models : List ModelDict) (rows : List ModelRow) (listing : Listing) : Prop where
  long : models.length ≤ listing.objects.length
  bound : ∀ place ∈ listing.models, place < listing.objects.length
  nodup : listing.models.Nodup
  same : ∀ place model, models[place]? = some model → ∃ now, listing.objects[place]? = some now ∧
    now.id = model.id ∧ now.owned_by = model.owned_by ∧
    now.name = last_name models rows place model.name
  untouched : ∀ place, place < models.length →
    (∀ row ∈ rows, row.overrides = true → ¬ Addressed models row.id place) →
    listing.objects[place]? = models[place]?

theorem kept_start (models : List ModelDict) :
    Kept models [] ⟨models, List.range models.length⟩ where
  long := Nat.le_refl _
  bound := fun _ member => List.mem_range.mp member
  nodup := List.nodup_range
  same := fun _ model present => ⟨model, present, rfl, rfl, rfl⟩
  untouched := fun _ _ _ => rfl

theorem last_name_append (rows : List ModelRow) (row : ModelRow) (place : Nat) (name : String) :
    last_name models (rows ++ [row]) place name =
      if row.overrides = true ∧ Addressed models row.id place then row.name
      else last_name models rows place name := by
  unfold last_name
  rw [List.filter_append, List.filter_singleton]
  by_cases writes : row.overrides = true ∧ Addressed models row.id place
  · simp [writes.1, writes.2]
  · have skipped : (row.overrides && decide (Addressed models row.id place)) = false := by
      simpa using writes
    simp [skipped, writes]

theorem overrides_of_hides {row : ModelRow} (kind : row.hides = true) : row.overrides = false := by
  simp only [ModelRow.hides, ModelRow.overrides, Bool.and_eq_true, Bool.not_eq_true'] at kind ⊢
  simp [kind.2]

theorem overrides_of_isSome {row : ModelRow} (preset : row.base_model_id.isSome) :
    row.overrides = false := by
  cases base : row.base_model_id with
  | none => simp [base] at preset
  | some => simp [ModelRow.overrides, base]

theorem Kept.quiet {rows : List ModelRow} {listing : Listing} {row : ModelRow}
    (kept : Kept models rows listing)
    (idle : row.overrides = false ∨ ∀ place, ¬ Addressed models row.id place) :
    Kept models (rows ++ [row]) listing := by
  refine ⟨kept.long, kept.bound, kept.nodup, ?_, ?_⟩
  · intro place model present
    obtain ⟨now, here, id, owned_by, name⟩ := kept.same place model present
    refine ⟨now, here, id, owned_by, ?_⟩
    rw [last_name_append, if_neg]
    · exact name
    · rintro ⟨kind, addressed⟩
      rcases idle with other | missing
      · rw [other] at kind
        cases kind
      · exact missing place addressed
  · intro place bound quiet
    exact kept.untouched place bound (fun other member => quiet other (List.mem_append_left _ member))

theorem Kept.step {rows : List ModelRow} {listing next : Listing} {row : ModelRow}
    (kept : Kept models rows listing) (step : RowStep plugins models listing row next) :
    Kept models (rows ++ [row]) next := by
  cases step with
  | unmatched override missing => exact kept.quiet (.inr missing)
  | unused preset => exact kept.quiet (.inl (overrides_of_isSome preset))
  | overridden place action_ids filter_ids kind readable addressed =>
    refine ⟨by simpa using kept.long, by simpa using kept.bound, kept.nodup, ?_, ?_⟩
    · intro other model present
      obtain ⟨now, here, id, owned_by, name⟩ := kept.same other model present
      by_cases same : place = other
      · subst same
        refine ⟨row.override action_ids filter_ids now, by simp [here], id, owned_by, ?_⟩
        rw [last_name_append, if_pos ⟨kind, addressed⟩]
        rfl
      · refine ⟨now, by simp [same, here], id, owned_by, ?_⟩
        rw [last_name_append, if_neg (fun writes => same (addressed.unique writes.2))]
        exact name
    · intro other bound quiet
      have different : place ≠ other := by
        rintro rfl
        exact quiet row (by simp) kind addressed
      have before := kept.untouched other bound
        (fun row member => quiet row (List.mem_append_left _ member))
      simp [different, before]
  | hidden place gone kind =>
    have before := kept.quiet (.inl (overrides_of_hides kind))
    exact ⟨before.long, fun other member => before.bound other (List.mem_of_mem_erase member),
      before.nodup.erase gone, before.same, before.untouched⟩
  | appended dict kind =>
    have preset : row.base_model_id.isSome = true := (Bool.and_eq_true_iff.mp kind).1
    have before := kept.quiet (.inl (overrides_of_isSome preset))
    refine ⟨?_, ?_, ?_, ?_, ?_⟩
    · exact Nat.le_trans before.long (by simp)
    · intro place member
      rcases List.mem_append.mp member with member | member
      · exact Nat.lt_of_lt_of_le (before.bound place member) (by simp)
      · obtain rfl := List.mem_singleton.mp member
        simp
    · refine List.nodup_append.mpr ⟨before.nodup, by simp, ?_⟩
      rintro place member other last rfl
      obtain rfl := List.mem_singleton.mp last
      exact Nat.lt_irrefl _ (before.bound _ member)
    · intro place model present
      obtain ⟨now, here, facts⟩ := before.same place model present
      have bound := (List.getElem?_eq_some_iff.mp here).1
      exact ⟨now, by rw [List.getElem?_append_left bound]; exact here, facts⟩
    · intro place bound quiet
      rw [List.getElem?_append_left (Nat.lt_of_lt_of_le bound before.long)]
      exact before.untouched place bound quiet

end ModelList

end OpenWebui
