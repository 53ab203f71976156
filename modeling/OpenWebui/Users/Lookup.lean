import OpenWebui.Base.Dict
import OpenWebui.Base.JsonNested

/-! The users of a provider and a subject, as the JSON columns of the users are searched on
SQLite and on PostgreSQL. -/

namespace OpenWebui.Users

/-- A user row. The object of a provider has one field: the subject, or the external id. -/
structure User where
  id : String
  oauth : Option (Dict String String)
  scim : Option (Dict String String)

inductive Dialect where
  | sqlite
  | postgresql
  | other
  deriving DecidableEq

/-- What PostgreSQL answers where a text has the character 0, which its texts cannot hold. -/
inductive DatabaseError where
  | untranslatable_character
  deriving DecidableEq

structure JsonColumn where
  read : User → Option (Dict String String)
  field : List Char
  name : JsonText.FieldName field

theorem sub_name : JsonText.FieldName ['s', 'u', 'b'] where
  inner := JsonText.inner_of_plain (by decide) (by decide)
  letters := by decide
  lowered := by decide
  fixed := by decide
  opens := ⟨'s', _, rfl, by decide⟩
  closes before same := by
    have ends := congrArg List.getLast? same
    simp at ends

theorem external_id_name :
    JsonText.FieldName ['e', 'x', 't', 'e', 'r', 'n', 'a', 'l', '_', 'i', 'd'] where
  inner := JsonText.inner_of_plain (by decide) (by decide)
  letters := by decide
  lowered := by decide
  fixed := by decide
  opens := ⟨'e', _, rfl, by decide⟩
  closes before same := by
    have ends := congrArg List.getLast? same
    simp at ends

def oauth : JsonColumn := ⟨User.oauth, _, sub_name⟩

def scim : JsonColumn := ⟨User.scim, _, external_id_name⟩

section Lookup

variable (column : JsonColumn) (provider subject : String)

/-- `column[provider][field] == subject`. -/
def linked (user : User) : Bool :=
  decide ((column.read user).bind (fun document => document.get? provider) = some subject)

def textLinks (document : Dict String String) : List (List Char × List Char) :=
  document.entries.map (fun link => (link.1.toList, link.2.toList))

/-- `column.contains({provider: {field: subject}})`: a test of the stored text. A null has none. -/
def contains (user : User) : Bool :=
  (column.read user).any (fun document =>
    Like.like
      ('%' :: (JsonText.nested column.field [(provider.toList, subject.toList)] ++ ['%']))
      (JsonText.nested column.field (textLinks document)))

def holdsNul (text : String) : Bool := decide ('\x00' ∈ text.toList)

def unreadable (user : User) : Bool :=
  (column.read user).any (fun document =>
    document.entries.any (fun link => holdsNul link.1 || holdsNul link.2))

def lookup (dialect : Dialect) (users : List User) : Except DatabaseError (Option User) :=
  match dialect with
  | .sqlite => .ok (users.find? (contains column provider subject))
  | .postgresql =>
    if holdsNul provider || holdsNul subject || users.any (unreadable column) then
      .error .untranslatable_character
    else .ok (users.find? (linked column provider subject))
  | .other => .ok users.head?

end Lookup

def get_user_by_oauth_sub (dialect : Dialect) (users : List User) (provider sub : String) :
    Except DatabaseError (Option User) := lookup oauth provider sub dialect users

def get_user_by_scim_external_id (dialect : Dialect) (users : List User)
    (provider external_id : String) : Except DatabaseError (Option User) :=
  lookup scim provider external_id dialect users

/-- No user is found exactly when none is linked; a user who is found is linked. -/
def Exact (column : JsonColumn) (users : List User) (provider subject : String)
    (result : Except DatabaseError (Option User)) : Prop :=
  ∃ found, result = .ok found ∧
    (found = none ↔ ∀ user ∈ users, linked column provider subject user = false) ∧
      ∀ user, found = some user → user ∈ users ∧ linked column provider subject user = true

/-- No sign of `LIKE` in the text. -/
def Plain (text : String) : Prop := '%' ∉ text.toList ∧ '_' ∉ text.toList

instance (text : String) : Decidable (Plain text) := inferInstanceAs (Decidable (_ ∧ _))

/-- The document is recognised on SQLite: it has a single link, which is to the provider and the
subject up to the case of ASCII letters; a provider or a subject with a sign of `LIKE` is
recognised as the pattern that it is. -/
def Recognised (column : JsonColumn) (provider subject : String) (user : User) : Prop :=
  ∃ document, column.read user = some document ∧
    if Plain provider ∧ Plain subject then
      (textLinks document).map JsonText.lowerLink =
        [(Like.lower provider.toList, Like.lower subject.toList)]
    else Like.like
      ('%' :: (JsonText.nested column.field [(provider.toList, subject.toList)] ++ ['%']))
      (JsonText.nested column.field (textLinks document)) = true

/-- The first user recognised is linked, and where a user is linked one is recognised. -/
structure FirstLinked (column : JsonColumn) (users : List User) (provider subject : String) :
    Prop where
  first : ∀ before user after, users = before ++ user :: after →
    Recognised column provider subject user →
      (∀ earlier ∈ before, ¬ Recognised column provider subject earlier) →
        linked column provider subject user = true
  found : ∀ user ∈ users, linked column provider subject user = true →
    ∃ other ∈ users, Recognised column provider subject other

/-- The character 0 is in neither text of the request and in no document. -/
structure Readable (column : JsonColumn) (users : List User) (provider subject : String) :
    Prop where
  provider : holdsNul provider = false
  subject : holdsNul subject = false
  documents : ∀ user ∈ users, unreadable column user = false

theorem contains_iff (column : JsonColumn) (provider subject : String) (user : User) :
    contains column provider subject user = true ↔ Recognised column provider subject user := by
  unfold contains Recognised
  rw [Option.any_eq_true]
  refine exists_congr (fun document => and_congr_right (fun _ => ?_))
  split
  · rename_i plain
    exact JsonText.like_nested_iff column.name plain.1 plain.2
  · exact Iff.rfl

theorem exact_ok {column : JsonColumn} {users : List User} {provider subject : String}
    (found : Option User) :
    Exact column users provider subject (.ok found) ↔
      (found = none ↔ ∀ user ∈ users, linked column provider subject user = false) ∧
        ∀ user, found = some user → user ∈ users ∧ linked column provider subject user = true := by
  constructor
  · rintro ⟨same, answered, exact⟩
    obtain rfl := Except.ok.inj answered
    exact exact
  · intro exact
    exact ⟨found, rfl, exact⟩

theorem lookup_postgresql_iff (column : JsonColumn) (users : List User)
    (provider subject : String) :
    Exact column users provider subject (lookup column provider subject .postgresql users) ↔
      Readable column users provider subject := by
  rw [lookup]
  split
  · rename_i bad
    constructor
    · rintro ⟨_, raised, _⟩
      cases raised
    · intro readable
      have none_bad := List.any_eq_false.mpr
        (fun user member => (readable.documents user member).symm ▸ Bool.false_ne_true)
      rw [readable.provider, readable.subject, none_bad] at bad
      cases bad
  · rename_i good
    simp only [Bool.or_eq_true, not_or, Bool.not_eq_true, List.any_eq_false] at good
    have readable : Readable column users provider subject := ⟨good.1.1, good.1.2, good.2⟩
    rw [iff_true_right readable, exact_ok]
    constructor
    · simp only [List.find?_eq_none, Bool.not_eq_true]
    · intro user found
      exact ⟨List.mem_of_find?_eq_some found, List.find?_some found⟩

theorem lookup_sqlite_iff (column : JsonColumn) (users : List User) (provider subject : String) :
    Exact column users provider subject (lookup column provider subject .sqlite users) ↔
      FirstLinked column users provider subject := by
  rw [lookup, exact_ok]
  constructor
  · rintro ⟨none_iff, right⟩
    refine ⟨?_, ?_⟩
    · intro before user after split recognised earlier
      refine (right user ?_).2
      rw [List.find?_eq_some_iff_append]
      refine ⟨(contains_iff ..).mpr recognised, before, after, split, ?_⟩
      intro other member
      rw [Bool.not_eq_true', ← Bool.not_eq_true, contains_iff]
      exact earlier other member
    · intro user member is_linked
      cases answer : users.find? (contains column provider subject) with
      | none =>
        rw [none_iff.mp answer user member] at is_linked
        cases is_linked
      | some other =>
        exact ⟨other, List.mem_of_find?_eq_some answer,
          (contains_iff ..).mp (List.find?_some answer)⟩
  · intro good
    have right : ∀ user, users.find? (contains column provider subject) = some user →
        user ∈ users ∧ linked column provider subject user = true := by
      intro user answer
      refine ⟨List.mem_of_find?_eq_some answer, ?_⟩
      obtain ⟨recognised, before, after, split, earlier⟩ :=
        List.find?_eq_some_iff_append.mp answer
      refine good.first before user after split ((contains_iff ..).mp recognised) ?_
      intro other member found
      simpa [(contains_iff ..).mpr found] using earlier other member
    refine ⟨⟨?_, ?_⟩, right⟩
    · intro answer user member
      by_contra is_linked
      rw [Bool.not_eq_false] at is_linked
      obtain ⟨other, inside, recognised⟩ := good.found user member is_linked
      exact List.find?_eq_none.mp answer other inside ((contains_iff ..).mpr recognised)
    · intro unlinked
      cases answer : users.find? (contains column provider subject) with
      | none => rfl
      | some user =>
        obtain ⟨member, is_linked⟩ := right user answer
        rw [unlinked user member] at is_linked
        cases is_linked

theorem lookup_both_iff (column : JsonColumn) (users : List User) (provider subject : String) :
    (∀ dialect, dialect ≠ Dialect.other →
        Exact column users provider subject (lookup column provider subject dialect users)) ↔
      Readable column users provider subject ∧ FirstLinked column users provider subject := by
  rw [← lookup_postgresql_iff, ← lookup_sqlite_iff]
  constructor
  · intro exact
    exact ⟨exact .postgresql (by decide), exact .sqlite (by decide)⟩
  · rintro ⟨one, two⟩ dialect known
    cases dialect with
    | sqlite => exact two
    | postgresql => exact one
    | other => exact absurd rfl known

/-- Both lookups are exact on both databases exactly when the character 0 occurs nowhere and the
first user recognised on SQLite is linked. -/
theorem subject_lookups_exact_iff (users : List User) (provider subject : String) :
    ((∀ dialect, dialect ≠ Dialect.other → Exact oauth users provider subject
        (get_user_by_oauth_sub dialect users provider subject)) ↔
      Readable oauth users provider subject ∧ FirstLinked oauth users provider subject) ∧
    ((∀ dialect, dialect ≠ Dialect.other → Exact scim users provider subject
        (get_user_by_scim_external_id dialect users provider subject)) ↔
      Readable scim users provider subject ∧ FirstLinked scim users provider subject) :=
  ⟨lookup_both_iff oauth users provider subject, lookup_both_iff scim users provider subject⟩

def twice : User where
  id := "ann"
  oauth := some ((Dict.empty.set "github" "1").set "google" "2")
  scim := none

def mallory : User where
  id := "mallory"
  oauth := some (Dict.empty.set "oidc" "Bob")
  scim := none

/-- On SQLite the first is not found by either, and the second is found for another subject. -/
theorem subject_lookup_not_exact :
    (get_user_by_oauth_sub .sqlite [twice] "google" "2" = .ok none ∧
      ¬ Exact oauth [twice] "google" "2" (get_user_by_oauth_sub .sqlite [twice] "google" "2")) ∧
    (get_user_by_oauth_sub .sqlite [mallory] "oidc" "bob" = .ok (some mallory) ∧
      ¬ Exact oauth [mallory] "oidc" "bob"
        (get_user_by_oauth_sub .sqlite [mallory] "oidc" "bob")) := by
  have missed : get_user_by_oauth_sub .sqlite [twice] "google" "2" = .ok none := by
    have not_found : contains oauth "google" "2" twice = false := by decide +kernel
    simp [get_user_by_oauth_sub, lookup, not_found]
  have mistaken : get_user_by_oauth_sub .sqlite [mallory] "oidc" "bob" = .ok (some mallory) := by
    have found : contains oauth "oidc" "bob" mallory = true := by decide +kernel
    simp [get_user_by_oauth_sub, lookup, found]
  refine ⟨⟨missed, ?_⟩, mistaken, ?_⟩
  · rw [missed, exact_ok]
    intro exact
    have unlinked := exact.1.mp rfl twice (by simp)
    exact absurd unlinked (by decide)
  · rw [mistaken, exact_ok]
    intro exact
    exact absurd (exact.2 mallory rfl).2 (by decide)

end OpenWebui.Users
