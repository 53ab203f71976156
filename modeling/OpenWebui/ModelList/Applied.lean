import Mathlib.Data.List.Nodup
import Mathlib.Data.List.Perm.Subperm
import OpenWebui.ModelList.Overrides

/-! Which dictionaries the inactive overrides take out of the list, and which the presets add to it.
-/

namespace OpenWebui

namespace ModelList

variable {plugins : Bool} {models : List ModelDict} {rows : List ModelRow} {listing : Listing}

theorem ModelDict.equal_comm (first second : ModelDict) :
    first.equal second = second.equal first := by
  unfold ModelDict.equal
  rw [Bool.and_comm (Json.equal _ _), decide_eq_decide.mpr (eq_comm (a := first.id)),
    decide_eq_decide.mpr (eq_comm (a := first.name)),
    decide_eq_decide.mpr (eq_comm (a := first.owned_by)),
    decide_eq_decide.mpr (eq_comm (a := first.arena))]

theorem ModelDict.id_of_equal {first second : ModelDict} (equal : first.equal second = true) :
    first.id = second.id ∧ first.owned_by = second.owned_by := by
  simp only [ModelDict.equal, Bool.and_eq_true, decide_eq_true_eq] at equal
  exact ⟨equal.1.1.1.1, equal.1.1.2⟩

theorem Addressed.key_cases {key : String} {place : Nat} {model : ModelDict}
    (addressed : Addressed models key place) (found : models[place]? = some model) :
    key = model.id ∨ key = base_name model.id := by
  obtain ⟨holder, present, named⟩ := addressed.exists_model
  obtain rfl := Option.some.inj (present.symm.trans found)
  exact named.imp Eq.symm (fun tagged => tagged.2.symm)

theorem Addressed.pinned {first second : String} {place other : Nat} {holder model : ModelDict}
    (different : first ≠ second) (one : Addressed models first place)
    (two : Addressed models second place) (found : models[place]? = some holder)
    (present : models[other]? = some model) (same : model.id = holder.id)
    (owner : model.owned_by = holder.owned_by) : other = place := by
  cases one with
  | exact holder' found' same' last =>
    obtain rfl := Option.some.inj (found'.symm.trans found)
    cases two with
    | exact holder'' found'' same'' =>
      obtain rfl := Option.some.inj (found''.symm.trans found)
      exact absurd (same'.symm.trans same'') different
    | tagged holder'' found'' ollama named absent earliest =>
      obtain rfl := Option.some.inj (found''.symm.trans found)
      rcases Nat.lt_trichotomy other place with before | equal | after
      · exact absurd (by rw [same]; exact named)
          (earliest other model before present (owner.trans ollama))
      · exact equal
      · exact absurd (same.trans same') (last other model after present)
  | tagged holder' found' ollama named absent earliest =>
    obtain rfl := Option.some.inj (found'.symm.trans found)
    cases two with
    | exact holder'' found'' same'' last =>
      obtain rfl := Option.some.inj (found''.symm.trans found)
      rcases Nat.lt_trichotomy other place with before | equal | after
      · exact absurd (by rw [same]; exact named)
          (earliest other model before present (owner.trans ollama))
      · exact equal
      · exact absurd (same.trans same'') (last other model after present)
    | tagged holder'' found'' ollama' named' =>
      obtain rfl := Option.some.inj (found''.symm.trans found)
      exact absurd (named.symm.trans named') different

/-- The presets shown are the active ones whose id no earlier dictionary has. -/
structure Appended (models : List ModelDict) (rows : List ModelRow) (listing : Listing) : Prop where
  ids : (listing.models.filter (fun place => decide (models.length ≤ place))).filterMap
      (fun place => (listing.objects[place]?).map ModelDict.id) =
    (rows.filter (fun row => row.is_preset && decide (row.id ∉ models.map ModelDict.id))).map
      ModelRow.id
  fresh : ∀ place now, models.length ≤ place → listing.objects[place]? = some now →
    now.id ∉ models.map ModelDict.id

theorem appended_start (models : List ModelDict) :
    Appended models [] ⟨models, List.range models.length⟩ where
  ids := by
    have none_later : (List.range models.length).filter
        (fun place => decide (models.length ≤ place)) = [] := by
      simp [List.filter_eq_nil_iff]
    simp [none_later]
  fresh := fun place now outside present => by
    have bound := (List.getElem?_eq_some_iff.mp present).1
    exact absurd bound (Nat.not_lt.mpr outside)

theorem removed_alike {key : String} {place gone : Nat} (kept : Kept models rows listing)
    (appended : Appended models rows listing) (addressed : Addressed models key place)
    (alike : gone = place ∨ ∃ first second, listing.objects[gone]? = some first ∧
      listing.objects[place]? = some second ∧ first.equal second = true) :
    ∃ first second, models[place]? = some first ∧ models[gone]? = some second ∧
      second.id = first.id ∧ second.owned_by = first.owned_by := by
  obtain ⟨holder, present, _⟩ := addressed.exists_model
  rcases alike with rfl | ⟨first, second, here, here', equal⟩
  · exact ⟨holder, holder, present, present, rfl, rfl⟩
  · obtain ⟨now, found, id, owned_by, _⟩ := kept.same place holder present
    obtain rfl := Option.some.inj (found.symm.trans here')
    obtain ⟨same, owner⟩ := ModelDict.id_of_equal equal
    have inside : gone < models.length := by
      refine Nat.lt_of_not_le (fun outside => ?_)
      refine appended.fresh gone first outside here ?_
      rw [same, id]
      exact List.mem_map_of_mem (List.mem_of_getElem? present)
    have original := List.getElem?_eq_getElem inside
    obtain ⟨now', found', id', owned_by', _⟩ := kept.same gone _ original
    obtain rfl := Option.some.inj (found'.symm.trans here)
    exact ⟨holder, _, present, original, by rw [← id', same, id], by rw [← owned_by', owner, owned_by]⟩

theorem Appended.quiet {row : ModelRow} (appended : Appended models rows listing)
    (idle : row.is_preset = false ∨ row.id ∈ models.map ModelDict.id) :
    Appended models (rows ++ [row]) listing := by
  refine ⟨?_, appended.fresh⟩
  have skipped : (row.is_preset && decide (row.id ∉ models.map ModelDict.id)) = false := by
    rcases idle with other | taken
    · rw [other, Bool.false_and]
    · simp only [taken, not_true_eq_false, decide_false, Bool.and_false]
  rw [appended.ids, List.filter_append, List.filter_singleton, skipped]
  simp

theorem not_preset {row : ModelRow} (override : row.base_model_id = none) :
    row.is_preset = false := by simp [ModelRow.is_preset, override]

theorem base_of_overrides {row : ModelRow} (kind : row.overrides = true) :
    row.base_model_id = none :=
  Option.isNone_iff_eq_none.mp (Bool.and_eq_true_iff.mp kind).1

theorem base_of_hides {row : ModelRow} (kind : row.hides = true) : row.base_model_id = none :=
  Option.isNone_iff_eq_none.mp (Bool.and_eq_true_iff.mp kind).1

theorem Appended.step {next : Listing} {row : ModelRow} (kept : Kept models rows listing)
    (appended : Appended models rows listing) (step : RowStep plugins models listing row next) :
    Appended models (rows ++ [row]) next := by
  cases step with
  | unmatched override => exact appended.quiet (.inl (not_preset override))
  | unused preset skipped =>
    refine appended.quiet (skipped.imp (fun inactive => ?_) id)
    simp [ModelRow.is_preset, inactive]
  | overridden place action_ids filter_ids kind readable addressed =>
    have before := appended.quiet (.inl (not_preset (base_of_overrides kind)))
    have apart : ∀ other, models.length ≤ other →
        (listing.objects.modify place (row.override action_ids filter_ids))[other]? =
          listing.objects[other]? := by
      intro other outside
      have different : place ≠ other := (Nat.lt_of_lt_of_le addressed.lt outside).ne
      simp [different]
    refine ⟨?_, fun other now outside present => ?_⟩
    · rw [← before.ids]
      refine List.filterMap_congr (fun other member => ?_)
      rw [apart other (by simpa using (List.mem_filter.mp member).2)]
    · exact before.fresh other now outside ((apart other outside).symm.trans present)
  | hidden place gone kind addressed member alike =>
    have before := appended.quiet (.inl (not_preset (base_of_hides kind)))
    refine ⟨?_, before.fresh⟩
    rw [← before.ids]
    obtain ⟨_, _, _, present, _⟩ := removed_alike kept appended addressed alike
    have inside := (List.getElem?_eq_some_iff.mp present).1
    congr 1
    rw [kept.nodup.erase_eq_filter, List.filter_filter]
    refine List.filter_congr (fun other _ => ?_)
    by_cases outside : models.length ≤ other
    · simp [outside, (Nat.lt_of_lt_of_le inside outside).ne']
    · simp [outside]
  | appended dict kind readable fresh named =>
    have later : models.length ≤ listing.objects.length := kept.long
    refine ⟨?_, fun place now outside present => ?_⟩
    · have shown : (row.is_preset && decide (row.id ∉ models.map ModelDict.id)) = true := by
        rw [kind, decide_eq_true fresh]
        rfl
      rw [List.filter_append, List.filter_append, List.filterMap_append, List.map_append,
        ← appended.ids]
      congr 1
      · refine List.filterMap_congr (fun place member => ?_)
        rw [List.getElem?_append_left (kept.bound place (List.mem_filter.mp member).1)]
      · simp only [List.filter_singleton, decide_eq_true later, shown, cond_true]
        simp [named]
    · rcases Nat.lt_or_ge place listing.objects.length with before | after
      · rw [List.getElem?_append_left before] at present
        exact appended.fresh place now outside present
      · rw [List.getElem?_append_right after] at present
        obtain rfl := List.mem_singleton.mp (List.mem_of_getElem? present)
        rw [named]
        exact fresh

def removes (models : List ModelDict) (row : ModelRow) : Bool :=
  row.hides && ((base_model_lookup models).get? row.id).isSome

theorem removes_iff {row : ModelRow} :
    removes models row = true ↔ row.hides = true ∧ ∃ place, Addressed models row.id place := by
  simp only [removes, Bool.and_eq_true, Option.isSome_iff_exists, lookup_iff]

/-- What has been taken out so far: for each inactive override that leads somewhere,
in order, one of the starting dictionaries. -/
structure Removed (models : List ModelDict) (rows : List ModelRow) (removed : List (String × Nat))
    (listing : Listing) : Prop where
  keys : removed.map Prod.fst = (rows.filter (removes models)).map ModelRow.id
  distinct : (removed.map Prod.snd).Nodup
  alike : ∀ entry ∈ removed, ∃ place first second, Addressed models entry.1 place ∧
    models[place]? = some first ∧ models[entry.2]? = some second ∧ second.id = first.id ∧
    second.owned_by = first.owned_by ∧
    (entry.2 = place ∨ second.equal first = true ∨ ∃ row ∈ rows, row.overrides = true ∧
      (Addressed models row.id place ∨ Addressed models row.id entry.2))
  shown : ∀ place, place < models.length →
    (place ∈ listing.models ↔ place ∉ removed.map Prod.snd)

theorem removed_start (models : List ModelDict) :
    Removed models [] [] ⟨models, List.range models.length⟩ where
  keys := rfl
  distinct := List.nodup_nil
  alike := by simp
  shown := by simp

theorem Removed.later {row : ModelRow} {removed : List (String × Nat)}
    (before : Removed models rows removed listing) : ∀ entry ∈ removed,
    ∃ place first second, Addressed models entry.1 place ∧
      models[place]? = some first ∧ models[entry.2]? = some second ∧ second.id = first.id ∧
      second.owned_by = first.owned_by ∧
      (entry.2 = place ∨ second.equal first = true ∨ ∃ other ∈ rows ++ [row],
        other.overrides = true ∧
        (Addressed models other.id place ∨ Addressed models other.id entry.2)) := by
  intro entry member
  obtain ⟨place, first, second, addressed, found, found', id, owner, why⟩ := before.alike entry member
  refine ⟨place, first, second, addressed, found, found', id, owner, ?_⟩
  rcases why with same | equal | ⟨other, present, facts⟩
  · exact .inl same
  · exact .inr (.inl equal)
  · exact .inr (.inr ⟨other, List.mem_append_left _ present, facts⟩)

theorem Removed.quiet {row : ModelRow} {removed : List (String × Nat)} {next : Listing}
    (before : Removed models rows removed listing) (idle : removes models row = false)
    (frame : ∀ place, place < models.length → (place ∈ next.models ↔ place ∈ listing.models)) :
    Removed models (rows ++ [row]) removed next where
  keys := by
    rw [before.keys, List.filter_append, List.filter_singleton, idle]
    simp
  distinct := before.distinct
  alike := before.later
  shown := fun place bound => (frame place bound).trans (before.shown place bound)

theorem not_removes {row : ModelRow} (kind : row.hides = false) : removes models row = false := by
  rw [removes, kind, Bool.false_and]

theorem hides_of_base {row : ModelRow} (preset : row.base_model_id.isSome) : row.hides = false := by
  cases base : row.base_model_id with
  | none => simp [base] at preset
  | some => simp [ModelRow.hides, base]

theorem Removed.step {next : Listing} {row : ModelRow} {removed : List (String × Nat)}
    (kept : Kept models rows listing) (appended : Appended models rows listing)
    (before : Removed models rows removed listing)
    (step : RowStep plugins models listing row next) :
    ∃ removed, Removed models (rows ++ [row]) removed next := by
  cases step with
  | unmatched override missing =>
    refine ⟨removed, before.quiet ?_ (fun _ _ => Iff.rfl)⟩
    rw [← Bool.not_eq_true, removes_iff]
    rintro ⟨_, place, addressed⟩
    exact missing place addressed
  | unused preset =>
    exact ⟨removed, before.quiet (not_removes (hides_of_base preset)) (fun _ _ => Iff.rfl)⟩
  | overridden place action_ids filter_ids kind =>
    refine ⟨removed, before.quiet (not_removes ?_) (fun _ _ => Iff.rfl)⟩
    have active := (Bool.and_eq_true_iff.mp kind).2
    simp [ModelRow.hides, active]
  | hidden place gone kind addressed member alike =>
    obtain ⟨first, second, found, found', id, owner⟩ := removed_alike kept appended addressed alike
    have inside := (List.getElem?_eq_some_iff.mp found').1
    refine ⟨removed ++ [(row.id, gone)], ?_, ?_, ?_, ?_⟩
    · have counted : removes models row = true := removes_iff.mpr ⟨kind, place, addressed⟩
      rw [List.map_append, before.keys, List.filter_append, List.filter_singleton, counted]
      simp
    · rw [List.map_append]
      refine List.nodup_append.mpr ⟨before.distinct, by simp, ?_⟩
      rintro other present other' last rfl
      obtain rfl : other = gone := by simpa using last
      exact (before.shown other inside).mp member present
    · intro entry present
      rcases List.mem_append.mp present with present | present
      · exact before.later entry present
      · obtain rfl := List.mem_singleton.mp present
        refine ⟨place, first, second, addressed, found, found', id, owner, ?_⟩
        rcases alike with same | ⟨now, now', here, here', equal⟩
        · exact .inl same
        · by_cases touched : ∃ other ∈ rows, other.overrides = true ∧
              (Addressed models other.id place ∨ Addressed models other.id gone)
          · obtain ⟨other, present, facts⟩ := touched
            exact .inr (.inr ⟨other, List.mem_append_left _ present, facts⟩)
          · have still := kept.untouched place addressed.lt
              (fun other present kind addressed => touched ⟨other, present, kind, .inl addressed⟩)
            have still' := kept.untouched gone inside
              (fun other present kind addressed => touched ⟨other, present, kind, .inr addressed⟩)
            rw [still, found] at here'
            rw [still', found'] at here
            obtain rfl := Option.some.inj here'
            obtain rfl := Option.some.inj here
            exact .inr (.inl equal)
    · intro other bound
      rw [kept.nodup.mem_erase_iff, before.shown other bound]
      simp [and_comm]
  | appended dict kind =>
    have preset : row.base_model_id.isSome = true := (Bool.and_eq_true_iff.mp kind).1
    refine ⟨removed, before.quiet (not_removes (hides_of_base preset)) (fun place bound => ?_)⟩
    have different := (Nat.lt_of_lt_of_le bound kept.long).ne
    simp [different]

end ModelList

end OpenWebui

namespace OpenWebui

namespace ModelList

variable {plugins : Bool} {models : List ModelDict} {rows : List ModelRow} {listing : Listing}

/-- The row's action and filter ids are read: it overrides a dictionary or is shown. -/
def Used (models : List ModelDict) (row : ModelRow) : Prop :=
  (row.overrides = true ∧ ∃ place, Addressed models row.id place) ∨
    (row.is_preset = true ∧ row.id ∉ models.map ModelDict.id)

theorem RowStep.readable {next : Listing} {row : ModelRow}
    (step : RowStep plugins models listing row next) (used : Used models row) :
    Readable plugins row := by
  cases step with
  | unmatched override missing =>
    rcases used with ⟨_, place, addressed⟩ | ⟨preset, _⟩
    · exact absurd addressed (missing place)
    · rw [not_preset override] at preset
      cases preset
  | unused preset skipped =>
    rcases used with ⟨overrides, _⟩ | ⟨shown, fresh⟩
    · rw [overrides_of_isSome preset] at overrides
      cases overrides
    · rcases skipped with inactive | taken
      · simp [ModelRow.is_preset, inactive] at shown
      · exact absurd taken fresh
  | overridden place action_ids filter_ids kind readable => exact readable
  | hidden place gone kind =>
    rcases used with ⟨overrides, _⟩ | ⟨preset, _⟩
    · rw [overrides_of_hides kind] at overrides
      cases overrides
    · rw [not_preset (base_of_hides kind)] at preset
      cases preset
  | appended dict kind readable => exact readable

/-- What holds after any number of rows, with what they took out. -/
structure Progress (models : List ModelDict) (rows : List ModelRow) (removed : List (String × Nat))
    (listing : Listing) : Prop where
  kept : Kept models rows listing
  appended : Appended models rows listing
  removed : Removed models rows removed listing

theorem Progress.step {next : Listing} {row : ModelRow} {removed : List (String × Nat)}
    (progress : Progress models rows removed listing)
    (step : RowStep plugins models listing row next) :
    ∃ removed, Progress models (rows ++ [row]) removed next := by
  obtain ⟨removed', after⟩ := progress.removed.step progress.kept progress.appended step
  exact ⟨removed', progress.kept.step step, progress.appended.step progress.kept step, after⟩

def apply_rows (plugins : Bool) (models : List ModelDict) (rows : List ModelRow)
    (listing : Listing) : Except PyError Listing :=
  rows.foldlM (apply_row plugins (base_model_lookup models) (models.map ModelDict.id)) listing

theorem Progress.run {rest : List ModelRow} {final : Listing} {removed : List (String × Nat)}
    (progress : Progress models rows removed listing)
    (done : apply_rows plugins models rest listing = .ok final) :
    (∃ removed, Progress models (rows ++ rest) removed final) ∧
      ∀ row ∈ rest, Used models row → Readable plugins row := by
  induction rest generalizing rows removed listing with
  | nil =>
    obtain rfl := Except.ok.inj done
    exact ⟨⟨removed, by simpa using progress⟩, by simp⟩
  | cons row rest ih =>
    rw [apply_rows, List.foldlM_cons] at done
    obtain ⟨next, first, later⟩ := bind_eq_ok.mp done
    have step := apply_row_cases first
    obtain ⟨removed', after⟩ := progress.step step
    obtain ⟨whole, readable⟩ := ih after later
    refine ⟨by simpa using whole, fun other member used => ?_⟩
    rcases List.mem_cons.mp member with rfl | member
    · exact step.readable used
    · exact readable other member used

theorem no_third_key {id first second third : String}
    (one : first = id ∨ first = base_name id) (two : second = id ∨ second = base_name id)
    (three : third = id ∨ third = base_name id) (different : first ≠ second)
    (different' : first ≠ third) : second = third := by
  rcases one with rfl | rfl <;> rcases two with rfl | rfl <;> rcases three with rfl | rfl <;>
    first | rfl | contradiction

theorem Removed.row_of_mem {removed : List (String × Nat)} (before : Removed models rows removed listing)
    {entry : String × Nat} (member : entry ∈ removed) :
    ∃ row ∈ rows, row.hides = true ∧ row.id = entry.1 := by
  have key : entry.1 ∈ removed.map Prod.fst := List.mem_map_of_mem member
  rw [before.keys] at key
  obtain ⟨row, present, same⟩ := List.mem_map.mp key
  obtain ⟨inside, counted⟩ := List.mem_filter.mp present
  exact ⟨row, inside, (removes_iff.mp counted).1, same⟩

theorem Removed.key_inj {removed : List (String × Nat)} (before : Removed models rows removed listing)
    (unique : (rows.map ModelRow.id).Nodup) {first second : String × Nat} (one : first ∈ removed)
    (two : second ∈ removed) (same : first.1 = second.1) : first = second := by
  have distinct : (removed.map Prod.fst).Nodup := by
    rw [before.keys]
    exact unique.sublist (List.filter_sublist.map _)
  exact List.inj_on_of_nodup_map distinct one two same

theorem Progress.removable {row : ModelRow} {removed : List (String × Nat)} {place : Nat}
    (progress : Progress models rows removed listing)
    (unique : ((rows ++ [row]).map ModelRow.id).Nodup) (addressed : Addressed models row.id place)
    (alone : ∀ other ∈ rows, other.hides = true → ¬ Addressed models other.id place) :
    ∃ next, listing.remove place = .ok next := by
  by_cases present : place ∈ listing.models
  · exact remove_of_alike present (.inl rfl)
  have table : (rows.map ModelRow.id).Nodup := by
    rw [List.map_append] at unique
    exact (List.nodup_append.mp unique).1
  have apart : ∀ other ∈ rows, other.id ≠ row.id := by
    intro other member same
    rw [List.map_append] at unique
    exact (List.nodup_append.mp unique).2.2 _ (List.mem_map_of_mem member) _ (by simp) same
  have gone : place ∈ removed.map Prod.snd := by
    by_contra missing
    exact present ((progress.removed.shown place addressed.lt).mpr missing)
  obtain ⟨entry, inside, rfl⟩ := List.mem_map.mp gone
  obtain ⟨earlier, member, hides, key⟩ := progress.removed.row_of_mem inside
  obtain ⟨target, first, second, leads, found, found', id, owner, why⟩ :=
    progress.removed.alike entry inside
  rw [← key] at leads
  have row_key := addressed.key_cases found'
  have earlier_key := leads.key_cases found
  rw [← id] at earlier_key
  -- The row's id and the earlier one's are both keys of this id: there is no third.
  have quiet : ∀ other ∈ rows, other.id ≠ earlier.id → ∀ at_place, (at_place = target ∨
      at_place = entry.2) → ¬ Addressed models other.id at_place := by
    intro other member' different at_place which leads'
    have other_key : other.id = second.id ∨ other.id = base_name second.id := by
      rcases which with rfl | rfl
      · have keys := leads'.key_cases found
        rwa [← id] at keys
      · exact leads'.key_cases found'
    exact different (no_third_key row_key other_key earlier_key
      (fun same => apart other member' same.symm) (fun same => apart earlier member same.symm))
  have untouched : ∀ other ∈ rows, other.overrides = true → other.id ≠ earlier.id := by
    intro other member' kind same
    have equal := List.inj_on_of_nodup_map table member' member same
    rw [equal, overrides_of_hides hides] at kind
    cases kind
  have different : entry.2 ≠ target := by
    intro same
    exact alone earlier member hides (by rw [same]; exact leads)
  have equal : second.equal first = true := by
    rcases why with same | equal | ⟨other, member', kind, leads'⟩
    · exact absurd same different
    · exact equal
    · rcases leads' with leads' | leads'
      · exact absurd leads' (quiet other member' (untouched other member' kind) _ (.inl rfl))
      · exact absurd leads' (quiet other member' (untouched other member' kind) _ (.inr rfl))
  have still : target ∈ listing.models := by
    refine (progress.removed.shown target leads.lt).mpr (fun taken => ?_)
    obtain ⟨entry', inside', same⟩ := List.mem_map.mp taken
    obtain ⟨other, member', hides', key'⟩ := progress.removed.row_of_mem inside'
    have same_row : other.id = earlier.id := by
      by_contra apart'
      obtain ⟨target', first', second', leads', found₁, found₂, id', _⟩ :=
        progress.removed.alike entry' inside'
      rw [← key'] at leads'
      rw [same, found] at found₂
      obtain rfl := Option.some.inj found₂
      have other_key := leads'.key_cases found₁
      rw [← id', ← id] at other_key
      exact apart' (no_third_key row_key other_key earlier_key
        (fun same => apart other member' same.symm) (fun same => apart earlier member same.symm))
    have same_entry := progress.removed.key_inj table inside' inside
      (by rw [← key', same_row, key])
    exact different (by rw [← same, same_entry])
  have here : listing.objects[target]? = some first := by
    rw [progress.kept.untouched target leads.lt (fun other member' kind =>
      quiet other member' (untouched other member' kind) _ (.inl rfl))]
    exact found
  have here' : listing.objects[entry.2]? = some second := by
    rw [progress.kept.untouched entry.2 addressed.lt (fun other member' kind =>
      quiet other member' (untouched other member' kind) _ (.inr rfl))]
    exact found'
  exact remove_of_alike still (.inr ⟨first, second, here, here', by rwa [ModelDict.equal_comm]⟩)

theorem Progress.apply_row_ok {row : ModelRow} {removed : List (String × Nat)}
    (progress : Progress models rows removed listing)
    (unique : ((rows ++ [row]).map ModelRow.id).Nodup)
    (readable : Used models row → Readable plugins row)
    (alone : row.hides = true → ∀ place, Addressed models row.id place →
      ∀ other ∈ rows, other.hides = true → ¬ Addressed models other.id place) :
    ∃ next, apply_row plugins (base_model_lookup models) (models.map ModelDict.id) listing row =
      .ok next := by
  unfold apply_row
  cases base : row.base_model_id with
  | none =>
    cases target : (base_model_lookup models).get? row.id with
    | none => exact ⟨_, rfl⟩
    | some place =>
      have addressed := lookup_iff.mp target
      by_cases active : row.is_active = true
      · have used : Used models row :=
          .inl ⟨by simp [ModelRow.overrides, base, active], place, addressed⟩
        obtain ⟨⟨action_ids, actions⟩, filter_ids, filters⟩ := readable used
        simp only [if_pos active, actions, filters]
        exact ⟨_, rfl⟩
      · simp only [if_neg active]
        exact progress.removable unique addressed
          (alone (by simp [ModelRow.hides, base, active]) place addressed)
  | some base_id =>
    by_cases skipped : row.is_active = false ∨ row.id ∈ models.map ModelDict.id
    · simp only [if_pos skipped]
      exact ⟨_, rfl⟩
    · obtain ⟨active, fresh⟩ := not_or.mp skipped
      have used : Used models row := .inr ⟨by simp [ModelRow.is_preset, base, active], fresh⟩
      obtain ⟨⟨action_ids, actions⟩, filter_ids, filters⟩ := readable used
      simp only [if_neg skipped, actions, filters]
      exact ⟨_, rfl⟩

/-- No two inactive overrides lead to one dictionary. -/
def Separate (models : List ModelDict) (rows : List ModelRow) : Prop :=
  ∀ first ∈ rows, first.hides = true → ∀ second ∈ rows, second.hides = true →
    ∀ place, Addressed models first.id place → Addressed models second.id place →
      first.id = second.id

theorem Progress.run_ok {rest : List ModelRow} {removed : List (String × Nat)}
    (progress : Progress models rows removed listing)
    (unique : ((rows ++ rest).map ModelRow.id).Nodup)
    (readable : ∀ row ∈ rest, Used models row → Readable plugins row)
    (separate : Separate models (rows ++ rest)) :
    ∃ final, apply_rows plugins models rest listing = .ok final := by
  induction rest generalizing rows removed listing with
  | nil => exact ⟨listing, rfl⟩
  | cons row rest ih =>
    have split : rows ++ row :: rest = (rows ++ [row]) ++ rest := by simp
    rw [split] at unique separate
    have table : ((rows ++ [row]).map ModelRow.id).Nodup := by
      rw [List.map_append] at unique
      exact (List.nodup_append.mp unique).1
    obtain ⟨next, first⟩ := progress.apply_row_ok table (readable row (by simp)) (by
      intro hides place addressed other member hides' addressed'
      have same := separate other (by simp [member]) hides' row (by simp) hides place addressed'
        addressed
      rw [List.map_append] at table
      exact (List.nodup_append.mp table).2.2 _ (List.mem_map_of_mem member) _ (by simp) same)
    obtain ⟨removed', after⟩ := progress.step (apply_row_cases first)
    obtain ⟨final, later⟩ := ih after unique
      (fun other member => readable other (List.mem_cons_of_mem _ member)) separate
    refine ⟨final, ?_⟩
    rw [apply_rows, List.foldlM_cons, first]
    exact later

theorem Progress.separate {removed : List (String × Nat)}
    (progress : Progress models rows removed listing) : Separate models rows := by
  intro first member hides second member' hides' place addressed addressed'
  by_contra different
  have entry_of : ∀ row ∈ rows, row.hides = true → Addressed models row.id place →
      ∃ entry ∈ removed, entry.1 = row.id ∧ ∃ holder model, models[place]? = some holder ∧
        models[entry.2]? = some model ∧ model.id = holder.id ∧ model.owned_by = holder.owned_by := by
    intro row inside kind leads
    have key : row.id ∈ removed.map Prod.fst := by
      rw [progress.removed.keys]
      exact List.mem_map_of_mem (List.mem_filter.mpr ⟨inside, removes_iff.mpr ⟨kind, place, leads⟩⟩)
    obtain ⟨entry, present, same⟩ := List.mem_map.mp key
    obtain ⟨target, holder, model, leads', found, found', id, owner, _⟩ :=
      progress.removed.alike entry present
    rw [same] at leads'
    obtain rfl := leads.unique leads'
    exact ⟨entry, present, same, holder, model, found, found', id, owner⟩
  obtain ⟨entry, present, key, holder, model, found, at_entry, id, owner⟩ :=
    entry_of first member hides addressed
  obtain ⟨entry', present', key', holder', model', found', at_entry', id', owner'⟩ :=
    entry_of second member' hides' addressed'
  have one := addressed.pinned different addressed' found at_entry id owner
  have two := addressed.pinned different addressed' found' at_entry' id' owner'
  have same := List.inj_on_of_nodup_map progress.removed.distinct present present'
    (one.trans two.symm)
  exact different (by rw [← key, ← key', same])

end ModelList

end OpenWebui
