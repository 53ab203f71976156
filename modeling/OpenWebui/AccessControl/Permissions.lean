import OpenWebui.AccessControl.DefaultPermissions
import OpenWebui.Base.Json

/-! `get_permissions` and `has_permission`: nested permission objects of the groups
of a user are combined with the default permissions. -/

namespace OpenWebui.AccessControl

mutual

def fillValue (stored : Option Json) : Json → Json
  | .obj template =>
    match stored with
    | none => .obj template
    | some (.obj permissions) => .obj (fill_missing_permissions permissions template)
    | some other => other
  | value => stored.getD value

def fill_missing_permissions (permissions : Fields) : Fields → Fields
  | [] => permissions
  | (key, value) :: rest =>
    fill_missing_permissions (Assoc.set permissions key (fillValue (permissions.lookup key) value)) rest

end

mutual

def combineValue (stored : Option Json) : Json → Except PyError Json
  | .obj group_permissions =>
    match stored with
    | none => (combine_permissions [] group_permissions).map .obj
    | some (.obj permissions) => (combine_permissions permissions group_permissions).map .obj
    | some other => if group_permissions.isEmpty then .ok other else .error .typeError
  | value => .ok ((stored.map (fun old => old.orElse value)).getD value)

def combine_permissions (permissions : Fields) : Fields → Except PyError Fields
  | [] => .ok permissions
  | (key, value) :: rest => do
    let combined ← combineValue (permissions.lookup key) value
    combine_permissions (Assoc.set permissions key combined) rest

end

/-- `group.permissions or {}`, iterated over. -/
def groupPermissions (group : Json) : Except PyError Fields :=
  match group.orElse (.obj []) with
  | .obj permissions => .ok permissions
  | _ => .error .attributeError

def combineGroup (permissions : Fields) (group : Json) : Except PyError Fields := do
  let group_permissions ← groupPermissions group
  combine_permissions permissions group_permissions

def get_permissions (user_groups : List Json) (default_permissions : Fields) :
    Except PyError Fields := do
  let permissions ← user_groups.foldlM combineGroup default_permissions
  .ok (fill_missing_permissions permissions default_permissions)

def get_permission (permissions : Json) : List String → Except PyError Bool
  | [] => .ok permissions.truthy
  | key :: keys =>
    match permissions with
    | .obj fields =>
      match fields.lookup key with
      | none => .ok false
      | some value => get_permission value keys
    | other => do
      let found ← other.contains key
      if found then .error .typeError else .ok false

/-- `text.split('.')`. -/
def splitDots : List Char → List (List Char)
  | [] => [[]]
  | '.' :: rest => [] :: splitDots rest
  | char :: rest =>
    match splitDots rest with
    | [] => [[char]]
    | first :: later => (char :: first) :: later

def permissionHierarchy (permission_key : String) : List String :=
  (splitDots permission_key.toList).map String.ofList

def anyGroup (permission_hierarchy : List String) : List Json → Except PyError Bool
  | [] => .ok false
  | group :: rest => do
    if ← get_permission (group.orElse (.obj [])) permission_hierarchy then .ok true
    else anyGroup permission_hierarchy rest

def has_permission (DEFAULT_USER_PERMISSIONS : Fields) (user_groups : List Json)
    (permission_key : String) (default_permissions : Fields) : Except PyError (Bool × Fields) := do
  let permission_hierarchy := permissionHierarchy permission_key
  if ← anyGroup permission_hierarchy user_groups then .ok (true, default_permissions)
  else
    let filled := fill_missing_permissions default_permissions DEFAULT_USER_PERMISSIONS
    let granted ← get_permission (.obj filled) permission_hierarchy
    .ok (granted, filled)

def valueAt : Json → List String → Option Json
  | value, [] => some value
  | .obj fields, key :: keys => (fields.lookup key).bind (fun value => valueAt value keys)
  | _, _ :: _ => none

def granted (value : Json) (path : List String) : Bool := (valueAt value path).any Json.truthy

mutual

def fits (template : Json) : Json → Bool
  | .obj fields =>
    template.obj?.any (fun inner => decide (Assoc.keys fields).Nodup && fitsFields inner fields)
  | _ => template.obj?.isNone

def fitsFields (template : Fields) : Fields → Bool
  | [] => true
  | (key, value) :: rest =>
    (template.lookup key).all (fun inner => fits inner value) && fitsFields template rest

end

mutual

def within (template : Json) : Json → Bool
  | .obj fields =>
    template.obj?.any (fun inner => decide (Assoc.keys fields).Nodup && withinFields inner fields)
  | _ => template.obj?.isNone

def withinFields (template : Fields) : Fields → Bool
  | [] => true
  | (key, value) :: rest =>
    (template.lookup key).any (fun inner => within inner value) && withinFields template rest

end

/-- A leaf of the template, where booleans stand. -/
def isLeaf (template : Json) (path : List String) : Prop :=
  ∃ leaf, valueAt template path = some leaf ∧ leaf.obj? = none

theorem fits_obj {template fields : Fields} :
    fits (.obj template) (.obj fields) = true ↔
      (Assoc.keys fields).Nodup ∧ fitsFields template fields = true := by
  simp [fits, Json.obj?]

theorem within_obj {template fields : Fields} :
    within (.obj template) (.obj fields) = true ↔
      (Assoc.keys fields).Nodup ∧ withinFields template fields = true := by
  simp [within, Json.obj?]

theorem fits_leaf {template value : Json} (leaf : value.obj? = none) :
    fits template value = template.obj?.isNone := by
  cases value with
  | obj fields => cases leaf
  | _ => rw [fits]; nofun

theorem fits_of_lookup {template fields : Fields} (shape : fitsFields template fields = true)
    {key : String} {inner value : Json} (expected : template.lookup key = some inner)
    (found : fields.lookup key = some value) : fits inner value = true := by
  induction fields with
  | nil => cases found
  | cons field rest ih =>
    obtain ⟨other, first⟩ := field
    simp only [fitsFields, Bool.and_eq_true] at shape
    rw [Assoc.lookup_cons_self_or] at found
    split at found
    · rename_i same
      cases same
      cases Option.some.inj found
      simpa [expected] using shape.1
    · exact ih shape.2 found

theorem within_of_mem {template fields : Fields} (shape : withinFields template fields = true)
    {entry : String × Json} (member : entry ∈ fields) :
    ∃ inner, template.lookup entry.1 = some inner ∧ within inner entry.2 = true := by
  induction fields with
  | nil => cases member
  | cons field rest ih =>
    obtain ⟨other, first⟩ := field
    simp only [withinFields, Bool.and_eq_true] at shape
    rcases List.mem_cons.mp member with rfl | later
    · exact Option.any_eq_true .. |>.mp shape.1
    · exact ih shape.2 later

theorem fitsFields_set {template fields : Fields} (shape : fitsFields template fields = true)
    {key : String} {inner value : Json} (expected : template.lookup key = some inner)
    (fit : fits inner value = true) :
    fitsFields template (Assoc.set fields key value) = true := by
  induction fields with
  | nil => simp [Assoc.set, fitsFields, expected, fit]
  | cons field rest ih =>
    obtain ⟨other, first⟩ := field
    simp only [fitsFields, Bool.and_eq_true] at shape
    unfold Assoc.set
    split
    · simp [fitsFields, expected, fit, shape.2]
    · simp [fitsFields, shape.1, ih shape.2]

theorem lookup_fill {template : Fields} (unique : (Assoc.keys template).Nodup)
    (permissions : Fields) (key : String) :
    (fill_missing_permissions permissions template).lookup key =
      ((template.lookup key).map (fillValue (permissions.lookup key))).or
        (permissions.lookup key) := by
  induction template generalizing permissions with
  | nil => rfl
  | cons field rest ih =>
    obtain ⟨other, value⟩ := field
    rw [Assoc.keys_cons, List.nodup_cons] at unique
    rw [fill_missing_permissions, ih unique.2, Assoc.lookup_cons_self_or, Assoc.lookup_set]
    by_cases same : other = key
    · subst same
      rw [Assoc.lookup_eq_none.mpr unique.1]
      simp
    · simp [same]

theorem lookup_combine {group permissions combined : Fields}
    (unique : (Assoc.keys group).Nodup)
    (run : combine_permissions permissions group = .ok combined) (key : String) :
    (∀ value, group.lookup key = some value → ∃ merged,
        combineValue (permissions.lookup key) value = .ok merged ∧
          combined.lookup key = some merged) ∧
      (group.lookup key = none → combined.lookup key = permissions.lookup key) := by
  induction group generalizing permissions with
  | nil =>
    cases Except.ok.inj run
    exact ⟨nofun, fun _ => rfl⟩
  | cons field rest ih =>
    obtain ⟨other, value⟩ := field
    rw [Assoc.keys_cons, List.nodup_cons] at unique
    rw [combine_permissions, bind_eq_ok] at run
    obtain ⟨first, firstRun, later⟩ := run
    obtain ⟨changed, kept⟩ := ih unique.2 later
    rw [Assoc.lookup_set] at changed kept
    rw [Assoc.lookup_cons_self_or]
    by_cases same : other = key
    · subst same
      have absent := Assoc.lookup_eq_none.mpr unique.1
      rw [if_pos rfl] at kept ⊢
      refine ⟨fun stored found => ?_, nofun⟩
      cases Option.some.inj found
      exact ⟨first, firstRun, kept absent⟩
    · rw [if_neg same] at changed kept ⊢
      exact ⟨changed, kept⟩

theorem within_leaf {template value : Json} (leaf : value.obj? = none) :
    within template value = template.obj?.isNone := by
  cases value with
  | obj fields => cases leaf
  | _ => rw [within]; nofun

theorem combineValue_leaf (stored : Option Json) {value : Json} (leaf : value.obj? = none) :
    combineValue stored value = .ok ((stored.map (fun old => old.orElse value)).getD value) := by
  cases value with
  | obj fields => cases leaf
  | _ => rw [combineValue]; nofun

theorem obj_of_within {template : Json} {fields : Fields}
    (shape : within template (.obj fields) = true) : ∃ inner, template = .obj inner := by
  cases template with
  | obj inner => exact ⟨inner, rfl⟩
  | _ => simp [within, Json.obj?] at shape

theorem obj_of_fits {inner : Fields} {value : Json} (fit : fits (.obj inner) value = true) :
    ∃ fields, value = .obj fields := by
  cases value with
  | obj fields => exact ⟨fields, rfl⟩
  | _ => simp [fits, Json.obj?] at fit

theorem leaf_of_fits {template value : Json} (leaf : template.obj? = none)
    (fit : fits template value = true) : value.obj? = none := by
  cases value with
  | obj fields => simp [fits, leaf] at fit
  | _ => rfl

theorem leaf_of_within {template value : Json} (leaf : template.obj? = none)
    (shape : within template value = true) : value.obj? = none := by
  cases value with
  | obj fields => simp [within, leaf] at shape
  | _ => rfl

theorem combineValue_fits {group : Json} : ∀ {template : Json} {stored : Option Json},
    within template group = true → (∀ value, stored = some value → fits template value = true) →
      ∃ combined, combineValue stored group = .ok combined ∧ fits template combined = true := by
  induction group using Json.fieldInduction with
  | obj group ih =>
    intro template stored shape fit
    obtain ⟨inner, rfl⟩ := obj_of_within shape
    -- One field of the group after the other is combined into an object that fits.
    have fields : ∀ (entries : Fields), (∀ entry ∈ entries, entry ∈ group) → ∀ permissions,
        fits (.obj inner) (.obj permissions) = true → ∃ combined,
          combine_permissions permissions entries = .ok combined ∧
            fits (.obj inner) (.obj combined) = true := by
      intro entries
      induction entries with
      | nil => exact fun _ permissions fit => ⟨permissions, rfl, fit⟩
      | cons entry rest step =>
        intro inside permissions fit
        obtain ⟨distinct, shaped⟩ := fits_obj.mp fit
        have member := inside entry (by simp)
        obtain ⟨expected, found, entryShape⟩ := within_of_mem (within_obj.mp shape).2 member
        have storedFits : ∀ value, permissions.lookup entry.1 = some value →
            fits expected value = true := fun value stored => fits_of_lookup shaped found stored
        obtain ⟨value, run, valueFits⟩ := ih entry member entryShape storedFits
        obtain ⟨combined, later, kept⟩ := step (fun other present => inside other (by simp [present]))
          (Assoc.set permissions entry.1 value)
          (fits_obj.mpr ⟨Assoc.nodup_keys_set distinct _ _, fitsFields_set shaped found valueFits⟩)
        refine ⟨combined, ?_, kept⟩
        rw [combine_permissions, bind_eq_ok]
        exact ⟨value, run, later⟩
    cases stored with
    | none =>
      obtain ⟨combined, run, kept⟩ := fields group (fun _ member => member) [] rfl
      exact ⟨.obj combined, by rw [combineValue, run]; rfl, kept⟩
    | some value =>
      obtain ⟨permissions, rfl⟩ := obj_of_fits (fit value rfl)
      obtain ⟨combined, run, kept⟩ := fields group (fun _ member => member) permissions (fit _ rfl)
      exact ⟨.obj combined, by rw [combineValue, run]; rfl, kept⟩
  | other value leaf =>
    intro template stored shape fit
    rw [within_leaf leaf] at shape
    have plain : template.obj? = none := by simpa using shape
    refine ⟨_, combineValue_leaf stored leaf, ?_⟩
    cases stored with
    | none => rwa [Option.map_none, Option.getD_none, fits_leaf leaf]
    | some old =>
      have oldLeaf := leaf_of_fits plain (fit old rfl)
      simp only [Option.map_some, Option.getD_some, Json.orElse]
      split
      · exact fit old rfl
      · rwa [fits_leaf leaf]

@[simp] theorem granted_nil (value : Json) : granted value [] = value.truthy := by
  simp [granted, valueAt]

@[simp] theorem granted_obj (fields : Fields) (key : String) (keys : List String) :
    granted (.obj fields) (key :: keys) =
      (fields.lookup key).any (fun value => granted value keys) := by
  rw [granted, valueAt]
  cases fields.lookup key <;> rfl

theorem group_obj {inner : Fields} {group : Json} (shape : within (.obj inner) group = true) :
    ∃ fields, group = .obj fields := by
  cases group with
  | obj fields => exact ⟨fields, rfl⟩
  | _ => simp [within, Json.obj?] at shape

theorem combineValue_obj {inner group : Fields} {stored : Option Json} {combined : Json}
    (fit : ∀ value, stored = some value → fits (.obj inner) value = true)
    (run : combineValue stored (.obj group) = .ok combined) :
    ∃ permissions result, combine_permissions permissions group = .ok result ∧
      combined = .obj result ∧ fits (.obj inner) (.obj permissions) = true ∧
      ∀ key keys, stored.any (fun value => granted value (key :: keys)) =
        (permissions.lookup key).any (fun value => granted value keys) := by
  cases stored with
  | none =>
    rw [combineValue] at run
    cases result : combine_permissions [] group with
    | error error => simp [result, Except.map] at run
    | ok fields =>
      simp only [result, Except.map, Except.ok.injEq] at run
      exact ⟨[], fields, result, run.symm, rfl, fun _ _ => rfl⟩
  | some value =>
    obtain ⟨permissions, rfl⟩ := obj_of_fits (fit value rfl)
    rw [combineValue] at run
    cases result : combine_permissions permissions group with
    | error error => simp [result, Except.map] at run
    | ok fields =>
      simp only [result, Except.map, Except.ok.injEq] at run
      exact ⟨permissions, fields, result, run.symm, fit _ rfl, fun key keys => by simp⟩

theorem granted_combineValue {path : List String} : ∀ {template group combined : Json}
    {stored : Option Json}, isLeaf template path → within template group = true →
      (∀ value, stored = some value → fits template value = true) →
      combineValue stored group = .ok combined →
        granted combined path = (stored.any (fun value => granted value path) || granted group path) := by
  induction path with
  | nil =>
    intro template group combined stored leaf shape fit run
    obtain ⟨_, same, plain⟩ := leaf
    cases same
    have groupLeaf := leaf_of_within plain shape
    rw [combineValue_leaf stored groupLeaf] at run
    cases Except.ok.inj run
    cases stored with
    | none => simp
    | some old =>
      simp only [Option.map_some, Option.getD_some, Json.orElse, granted_nil, Option.any_some]
      split <;> simp [*]
  | cons key keys ih =>
    intro template group combined stored leaf shape fit run
    obtain ⟨found, read, plain⟩ := leaf
    cases template with
    | obj inner =>
      obtain ⟨expected, named, rest⟩ := Option.bind_eq_some_iff.mp read
      obtain ⟨group, rfl⟩ := group_obj shape
      obtain ⟨distinct, shaped⟩ := within_obj.mp shape
      obtain ⟨permissions, result, fieldsRun, rfl, permissionsFit, before⟩ := combineValue_obj fit run
      obtain ⟨changed, kept⟩ := lookup_combine distinct fieldsRun key
      rw [before, granted_obj, granted_obj]
      cases sent : group.lookup key with
      | none => simp [kept sent]
      | some value =>
        obtain ⟨merged, mergedRun, stored⟩ := changed value sent
        obtain ⟨other, otherNamed, valueShape⟩ :=
          within_of_mem shaped (Assoc.mem_of_lookup sent)
        cases Option.some.inj (named.symm.trans otherNamed)
        rw [stored, Option.any_some, Option.any_some]
        exact ih ⟨found, rest, plain⟩ valueShape
          (fun old present => fits_of_lookup (fits_obj.mp permissionsFit).2 named present) mergedRun
    | _ => cases read

theorem valueAt_fillValue {path : List String} : ∀ {template filling : Json} {stored : Option Json},
    isLeaf template path → fits template filling = true →
      (∀ value, stored = some value → fits template value = true) →
        valueAt (fillValue stored filling) path =
          (stored.bind (fun value => valueAt value path)).or (valueAt filling path) := by
  induction path with
  | nil =>
    intro template filling stored leaf fillingFits fit
    obtain ⟨_, same, plain⟩ := leaf
    cases same
    have fillingLeaf := leaf_of_fits plain fillingFits
    cases filling with
    | obj fields => cases fillingLeaf
    | _ => cases stored <;> simp [fillValue, valueAt]
  | cons key keys ih =>
    intro template filling stored leaf fillingFits fit
    obtain ⟨found, read, plain⟩ := leaf
    cases template with
    | obj inner =>
      obtain ⟨expected, named, rest⟩ := Option.bind_eq_some_iff.mp read
      obtain ⟨fields, rfl⟩ := obj_of_fits fillingFits
      obtain ⟨distinct, shaped⟩ := fits_obj.mp fillingFits
      cases stored with
      | none => simp [fillValue]
      | some value =>
        obtain ⟨permissions, rfl⟩ := obj_of_fits (fit value rfl)
        have permissionsFit := (fits_obj.mp (fit _ rfl)).2
        simp only [fillValue, valueAt, Option.bind_some, lookup_fill distinct]
        cases sent : fields.lookup key with
        | none => simp
        | some filler =>
          have step := ih ⟨found, rest, plain⟩ (fits_of_lookup shaped named sent)
            (fun old present => fits_of_lookup permissionsFit named present)
          simpa using step
    | _ => cases read

theorem fits_of_within {value : Json} : ∀ {template : Json}, within template value = true →
    fits template value = true := by
  induction value using Json.fieldInduction with
  | obj fields ih =>
    intro template shape
    obtain ⟨inner, rfl⟩ := obj_of_within shape
    obtain ⟨distinct, shaped⟩ := within_obj.mp shape
    refine fits_obj.mpr ⟨distinct, ?_⟩
    clear shape distinct
    induction fields with
    | nil => rfl
    | cons field rest step =>
      obtain ⟨expected, named, inside⟩ := within_of_mem shaped (List.mem_cons_self ..)
      simp only [withinFields, Bool.and_eq_true] at shaped
      simp only [fitsFields, named, Option.all_some, Bool.and_eq_true]
      exact ⟨ih field (by simp) inside,
        step (fun entry member => ih entry (by simp [member])) shaped.2⟩
  | other value leaf =>
    intro template shape
    rwa [within_leaf leaf, ← fits_leaf leaf] at shape

theorem fillValue_fits {filling : Json} : ∀ {template : Json} {stored : Option Json},
    within template filling = true → (∀ value, stored = some value → fits template value = true) →
      fits template (fillValue stored filling) = true := by
  induction filling using Json.fieldInduction with
  | obj filling ih =>
    intro template stored shape fit
    obtain ⟨inner, rfl⟩ := obj_of_within shape
    have fields : ∀ (entries : Fields), (∀ entry ∈ entries, entry ∈ filling) → ∀ permissions,
        fits (.obj inner) (.obj permissions) = true →
          fits (.obj inner) (.obj (fill_missing_permissions permissions entries)) = true := by
      intro entries
      induction entries with
      | nil => exact fun _ permissions fit => fit
      | cons entry rest step =>
        intro inside permissions fit
        obtain ⟨distinct, shaped⟩ := fits_obj.mp fit
        have member := inside entry (by simp)
        obtain ⟨expected, found, entryShape⟩ := within_of_mem (within_obj.mp shape).2 member
        have storedFits : ∀ value, permissions.lookup entry.1 = some value →
            fits expected value = true := fun value stored => fits_of_lookup shaped found stored
        exact step (fun other present => inside other (by simp [present])) _
          (fits_obj.mpr ⟨Assoc.nodup_keys_set distinct _ _,
            fitsFields_set shaped found (ih entry member entryShape storedFits)⟩)
    cases stored with
    | none => exact fits_of_within shape
    | some value =>
      obtain ⟨permissions, rfl⟩ := obj_of_fits (fit value rfl)
      exact fields filling (fun _ member => member) permissions (fit _ rfl)
  | other value leaf =>
    intro template stored shape fit
    have kept : fillValue stored value = stored.getD value := by
      cases value with
      | obj fields => cases leaf
      | _ => rw [fillValue]; nofun
    rw [kept]
    cases stored with
    | none => exact fits_of_within shape
    | some old => exact fit old rfl

theorem get_permission_eq {path : List String} : ∀ {template value : Json},
    isLeaf template path → fits template value = true →
      get_permission value path = .ok (granted value path) := by
  induction path with
  | nil =>
    intro template value leaf fit
    simp [get_permission]
  | cons key keys ih =>
    intro template value leaf fit
    obtain ⟨found, read, plain⟩ := leaf
    cases template with
    | obj inner =>
      obtain ⟨expected, named, rest⟩ := Option.bind_eq_some_iff.mp read
      obtain ⟨fields, rfl⟩ := obj_of_fits fit
      rw [get_permission, granted_obj]
      cases sent : fields.lookup key with
      | none => rfl
      | some stored =>
        exact ih ⟨found, rest, plain⟩ (fits_of_lookup (fits_obj.mp fit).2 named sent)
    | _ => cases read

section Agree

variable {template default_permissions : Fields} {user_groups : List Json} {path : List String}

/-- The permissions of a group are null or have the template's shape. -/
def GroupShape (template : Fields) (group : Json) : Prop :=
  group = .null ∨ within (.obj template) group = true

theorem GroupShape.fields {group : Json} (shape : GroupShape template group)
    (leaf : isLeaf (.obj template) path) :
    ∃ fields, group.orElse (.obj []) = .obj fields ∧
      within (.obj template) (.obj fields) = true ∧
      granted (.obj fields) path = granted group path := by
  cases path with
  | nil =>
    obtain ⟨_, same, plain⟩ := leaf
    cases same
    cases plain
  | cons key keys =>
    rcases shape with rfl | inside
    · exact ⟨[], rfl, rfl, rfl⟩
    · obtain ⟨fields, rfl⟩ := group_obj inside
      refine ⟨fields, ?_, inside, rfl⟩
      cases fields <;> rfl

theorem foldlM_combineGroup (leaf : isLeaf (.obj template) path)
    (shapes : ∀ group ∈ user_groups, GroupShape template group) :
    ∀ permissions, fits (.obj template) (.obj permissions) = true →
      ∃ combined, user_groups.foldlM combineGroup permissions = .ok combined ∧
        fits (.obj template) (.obj combined) = true ∧
        granted (.obj combined) path = (granted (.obj permissions) path ||
          user_groups.any (fun group => granted group path)) := by
  induction user_groups with
  | nil => exact fun permissions fit => ⟨permissions, rfl, fit, by simp⟩
  | cons group rest ih =>
    intro permissions fit
    obtain ⟨fields, read, inside, same⟩ := (shapes group (by simp)).fields leaf
    have storedFits : ∀ value, some (Json.obj permissions) = some value →
        fits (.obj template) value = true := fun value stored => Option.some.inj stored ▸ fit
    obtain ⟨value, run, valueFits⟩ := combineValue_fits inside storedFits
    have values := granted_combineValue leaf inside storedFits run
    obtain ⟨result, fieldsRun, rfl⟩ : ∃ result,
        combine_permissions permissions fields = .ok result ∧ value = .obj result := by
      rw [combineValue] at run
      cases result : combine_permissions permissions fields with
      | error error => simp [result, Except.map] at run
      | ok combined =>
        simp only [result, Except.map, Except.ok.injEq] at run
        exact ⟨combined, rfl, run.symm⟩
    obtain ⟨combined, later, kept, after⟩ :=
      ih (fun other member => shapes other (by simp [member])) result valueFits
    refine ⟨combined, ?_, kept, ?_⟩
    · rw [List.foldlM_cons, bind_eq_ok]
      refine ⟨result, ?_, later⟩
      simp [combineGroup, groupPermissions, read, bind, Except.bind, fieldsRun]
    · rw [after, values, same, Option.any_some, List.any_cons, Bool.or_assoc]

theorem anyGroup_eq (leaf : isLeaf (.obj template) path)
    (shapes : ∀ group ∈ user_groups, GroupShape template group) :
    anyGroup path user_groups = .ok (user_groups.any (fun group => granted group path)) := by
  induction user_groups with
  | nil => rfl
  | cons group rest ih =>
    obtain ⟨fields, read, inside, same⟩ := (shapes group (by simp)).fields leaf
    have later := ih fun other member => shapes other (by simp [member])
    rw [anyGroup, read, get_permission_eq leaf (fits_of_within inside), same, List.any_cons]
    cases granted group path with
    | true => rfl
    | false => simpa [bind, Except.bind] using later

theorem get_permissions_granted (leaf : isLeaf (.obj template) path)
    (defaults : fits (.obj template) (.obj default_permissions) = true)
    (shapes : ∀ group ∈ user_groups, GroupShape template group) :
    ∃ permissions, get_permissions user_groups default_permissions = .ok permissions ∧
      granted (.obj permissions) path = (granted (.obj default_permissions) path ||
        user_groups.any (fun group => granted group path)) := by
  obtain ⟨combined, run, fit, values⟩ := foldlM_combineGroup leaf shapes default_permissions defaults
  refine ⟨_, by rw [get_permissions, run]; rfl, ?_⟩
  have storedFits : ∀ value, some (Json.obj combined) = some value →
      fits (.obj template) value = true := fun value stored => Option.some.inj stored ▸ fit
  have filled := valueAt_fillValue leaf defaults storedFits
  rw [fillValue] at filled
  rw [← values, granted, filled, Option.bind_some]
  cases present : valueAt (.obj combined) path with
  | some value => simp [granted, present]
  | none =>
    -- A default that grants the permission is in the combination.
    have absent : granted (.obj combined) path = false := by simp [granted, present]
    rw [values, Bool.or_eq_false_iff] at absent
    rw [Option.none_or, granted, present]
    exact absent.1

theorem has_permission_granted {permission_key : String}
    (leaf : isLeaf (.obj template) (permissionHierarchy permission_key))
    (complete : within (.obj template) (.obj template) = true)
    (defaults : fits (.obj template) (.obj default_permissions) = true)
    (shapes : ∀ group ∈ user_groups, GroupShape template group) :
    ∃ filled, has_permission template user_groups permission_key default_permissions =
      .ok (user_groups.any (fun group => granted group (permissionHierarchy permission_key)) ||
        ((valueAt (.obj default_permissions) (permissionHierarchy permission_key)).or
          (valueAt (.obj template) (permissionHierarchy permission_key))).any Json.truthy, filled) := by
  have storedFits : ∀ value, some (Json.obj default_permissions) = some value →
      fits (.obj template) value = true := fun value stored => Option.some.inj stored ▸ defaults
  have filledFits := fillValue_fits complete storedFits
  have filled := valueAt_fillValue leaf (fits_of_within complete) storedFits
  rw [fillValue] at filledFits filled
  have run := get_permission_eq leaf filledFits
  rw [granted, filled, Option.bind_some] at run
  simp only [has_permission, anyGroup_eq leaf shapes, run, bind, Except.bind]
  cases user_groups.any (fun group => granted group (permissionHierarchy permission_key)) with
  | true => exact ⟨_, rfl⟩
  | false => exact ⟨_, rfl⟩

end Agree

/-- The client and the server agree on a permission. -/
def Agrees (env : Environment) (user_groups : List Json) (permission_key : String)
    (default_permissions : Fields) : Prop :=
  ∃ allowed filled permissions,
    has_permission (DEFAULT_USER_PERMISSIONS env) user_groups permission_key default_permissions =
        .ok (allowed, filled) ∧
      get_permissions user_groups default_permissions = .ok permissions ∧
      (allowed = true ↔
        granted (.obj permissions) (permissionHierarchy permission_key) = true)

theorem default_within (env : Environment) :
    within (.obj (DEFAULT_USER_PERMISSIONS env)) (.obj (DEFAULT_USER_PERMISSIONS env)) = true := rfl

theorem agrees_iff {env : Environment} {user_groups : List Json} {permission_key : String}
    {default_permissions : Fields}
    (leaf : isLeaf (.obj (DEFAULT_USER_PERMISSIONS env)) (permissionHierarchy permission_key))
    (defaults : fits (.obj (DEFAULT_USER_PERMISSIONS env)) (.obj default_permissions) = true)
    (shapes : ∀ group ∈ user_groups, GroupShape (DEFAULT_USER_PERMISSIONS env) group) :
    Agrees env user_groups permission_key default_permissions ↔
      (∃ group ∈ user_groups, granted group (permissionHierarchy permission_key) = true) ∨
        (valueAt (.obj default_permissions) (permissionHierarchy permission_key)).isSome = true ∨
          granted (.obj (DEFAULT_USER_PERMISSIONS env)) (permissionHierarchy permission_key) =
            false := by
  obtain ⟨filled, server⟩ := has_permission_granted leaf (default_within env) defaults shapes
  obtain ⟨permissions, client, values⟩ := get_permissions_granted leaf defaults shapes
  have agrees : Agrees env user_groups permission_key default_permissions ↔
      ((user_groups.any (fun group => granted group (permissionHierarchy permission_key)) ||
        ((valueAt (.obj default_permissions) (permissionHierarchy permission_key)).or
          (valueAt (.obj (DEFAULT_USER_PERMISSIONS env))
            (permissionHierarchy permission_key))).any Json.truthy) = true ↔
        (granted (.obj default_permissions) (permissionHierarchy permission_key) ||
          user_groups.any (fun group => granted group (permissionHierarchy permission_key))) =
            true) := by
    rw [← values]
    constructor
    · rintro ⟨allowed, left, told, first, second, same⟩
      rw [server] at first
      rw [client] at second
      cases Except.ok.inj first
      cases Except.ok.inj second
      exact same
    · exact fun same => ⟨_, filled, permissions, server, client, same⟩
  rw [agrees, ← List.any_eq_true]
  cases user_groups.any (fun group => granted group (permissionHierarchy permission_key)) with
  | true => simp
  | false =>
    simp only [granted]
    cases valueAt (.obj default_permissions) (permissionHierarchy permission_key) with
    | some value => simp
    | none => simp

/-- In every order of the groups both sides agree exactly when a group grants the
permission, the defaults name it, or it is off where the defaults are filled from. -/
theorem permissions_agree_iff (env : Environment) (user_groups : List Json)
    (permission_key : String) (default_permissions : Fields)
    (leaf : isLeaf (.obj (DEFAULT_USER_PERMISSIONS env)) (permissionHierarchy permission_key))
    (defaults : fits (.obj (DEFAULT_USER_PERMISSIONS env)) (.obj default_permissions) = true)
    (shapes : ∀ group ∈ user_groups, GroupShape (DEFAULT_USER_PERMISSIONS env) group) :
    (∀ order, order.Perm user_groups → Agrees env order permission_key default_permissions) ↔
      (∃ group ∈ user_groups, granted group (permissionHierarchy permission_key) = true) ∨
        (valueAt (.obj default_permissions) (permissionHierarchy permission_key)).isSome = true ∨
          granted (.obj (DEFAULT_USER_PERMISSIONS env)) (permissionHierarchy permission_key) =
            false := by
  constructor
  · intro agree
    exact (agrees_iff leaf defaults shapes).mp (agree user_groups (.refl _))
  · intro condition order same
    refine (agrees_iff leaf defaults fun group member => shapes group (same.mem_iff.mp member)).mpr ?_
    rcases condition with ⟨group, member, grants⟩ | rest
    · exact .inl ⟨group, same.mem_iff.mpr member, grants⟩
    · exact .inr rest

def olderDefaults : Fields := [("chat", .obj [("edit", .bool true)])]

theorem olderDefaults_edit :
    (∀ order, order.Perm [.obj [("chat", .obj [("edit", .bool false)])]] →
        Agrees (fun _ => none) order "chat.edit" olderDefaults) ↔
      (∃ group ∈ [Json.obj [("chat", .obj [("edit", .bool false)])]],
          granted group (permissionHierarchy "chat.edit") = true) ∨
        (valueAt (.obj olderDefaults) (permissionHierarchy "chat.edit")).isSome = true ∨
          granted (.obj (DEFAULT_USER_PERMISSIONS fun _ => none))
            (permissionHierarchy "chat.edit") = false :=
  permissions_agree_iff (fun _ => none) _ "chat.edit" olderDefaults ⟨.bool true, rfl, rfl⟩ rfl
    fun group member => .inr (by rw [List.mem_singleton.mp member]; rfl)

/-- The server lets the user delete chats, the client is told nothing about it. -/
theorem olderDefaults_delete :
    has_permission (DEFAULT_USER_PERMISSIONS fun _ => none) [] "chat.delete" olderDefaults =
        .ok (true, fill_missing_permissions olderDefaults (DEFAULT_USER_PERMISSIONS fun _ => none)) ∧
      get_permissions [] olderDefaults = .ok olderDefaults ∧
      ¬ Agrees (fun _ => none) [] "chat.delete" olderDefaults := by
  have server : has_permission (DEFAULT_USER_PERMISSIONS fun _ => none) [] "chat.delete"
      olderDefaults =
        .ok (true, fill_missing_permissions olderDefaults (DEFAULT_USER_PERMISSIONS fun _ => none)) :=
    rfl
  have client : get_permissions [] olderDefaults = .ok olderDefaults := rfl
  refine ⟨server, client, ?_⟩
  rintro ⟨allowed, filled, permissions, first, second, same⟩
  cases Except.ok.inj (server.symm.trans first)
  cases Except.ok.inj (client.symm.trans second)
  exact absurd (same.mp rfl) (by decide)

end OpenWebui.AccessControl
