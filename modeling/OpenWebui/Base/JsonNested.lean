import OpenWebui.Base.JsonSearch

/-! Objects whose values are objects of one field: when their text contains, up to the case of
letters, the text of an object with a single one of them. -/

namespace OpenWebui.JsonText

open Like (like lower lower_cons lower_append)

def nested (field : List Char) (links : List (List Char × List Char)) : List Char :=
  dumpsObject (links.map (fun link => (link.1, dumpsObject [(field, dumpsString link.2)])))

/-- A field name of letters and underscores that a search can recognise by its beginning. -/
structure FieldName (field : List Char) : Prop where
  inner : Inner field
  letters : escape field = field
  lowered : lower field = field
  fixed : '%' ∉ field
  opens : ∃ first rest, field = first :: rest ∧ first ≠ '_' ∧ first ≠ '"' ∧ first ≠ '\\' ∧ first ≠ ':'
  closes : ∀ before, field ≠ before ++ ['{']

def nestedBody (field : List Char) : List (List Char × List Char) → List Char
  | [] => []
  | link :: rest =>
    escape link.1 ++ '"' :: ':' :: ' ' :: '{' :: '"' :: (field ++ '"' :: ':' :: ' ' :: '"' ::
      (escape link.2 ++ '"' :: '}' ::
        (if rest.isEmpty then ['}'] else ',' :: ' ' :: '"' :: nestedBody field rest)))

section Nested

variable {field : List Char}

theorem nested_cons (name : FieldName field) (link : List Char × List Char)
    (rest : List (List Char × List Char)) :
    nested field (link :: rest) = '{' :: '"' :: nestedBody field (link :: rest) := by
  have written : ∀ links : List (List Char × List Char), links ≠ [] →
      [',', ' '].intercalate ((links.map (fun link =>
        (link.1, dumpsObject [(field, dumpsString link.2)]))).map (fun field =>
          dumpsString field.1 ++ ':' :: ' ' :: field.2)) ++ ['}'] = '"' :: nestedBody field links := by
    intro links some_link
    induction links with
    | nil => exact absurd rfl some_link
    | cons link rest ih =>
      cases rest with
      | nil => simp [nestedBody, dumpsString, dumpsObject, name.letters]
      | cons second later =>
        have next := ih (List.cons_ne_nil _ _)
        simp only [List.map_cons] at next ⊢
        rw [List.intercalate_cons_cons, List.append_assoc, List.append_assoc, next]
        simp [nestedBody, dumpsString, dumpsObject, name.letters]
  exact congrArg _ (written (link :: rest) (List.cons_ne_nil _ _))

theorem segments_structure {text : List Char} (mark : '"' ∉ text) (slash : '\\' ∉ text)
    (rest : List Char) : segments false (text ++ '"' :: rest) = text :: segments false rest :=
  (inner_of_plain mark slash).segments_mark rest

theorem segments_nestedBody (name : FieldName field) (link : List Char × List Char)
    (rest : List (List Char × List Char)) :
    segments false (nestedBody field (link :: rest)) =
      escape link.1 :: [':', ' ', '{'] :: field :: [':', ' '] :: escape link.2 ::
        (if rest.isEmpty then [['}', '}']]
          else ['}', ',', ' '] :: segments false (nestedBody field rest)) := by
  have opening := fun later => @segments_structure [':', ' ', '{'] (by decide) (by decide) later
  have colon := fun later => @segments_structure [':', ' '] (by decide) (by decide) later
  have comma := fun later => @segments_structure ['}', ',', ' '] (by decide) (by decide) later
  simp only [List.cons_append, List.nil_append] at opening colon comma
  rw [nestedBody, (inner_escape _).segments_mark, opening, name.inner.segments_mark, colon,
    (inner_escape _).segments_mark]
  split
  · rfl
  · rw [comma]

theorem nestedBody_aligned (name : FieldName field) {links : List (List Char × List Char)}
    (some_link : links ≠ []) {front : List (List Char)} {last key : List Char} {char : Char}
    {segment : List Char} {later : List (List Char)} (other : char ≠ ':') :
    segments false (nestedBody field links) ≠
      front ++ (last ++ ['{']) :: key :: [':', ' ', '{'] :: (char :: segment) :: later := by
  induction links generalizing front with
  | nil => exact absurd rfl some_link
  | cons link rest ih =>
    obtain ⟨first, word, shape, _, _, _, begins⟩ := name.opens
    rw [segments_nestedBody name]
    intro same
    -- the brace is looked for in each of the six segments of the link
    rcases front with _ | ⟨_, _ | ⟨_, _ | ⟨_, _ | ⟨_, _ | ⟨_, front⟩⟩⟩⟩⟩
    · simp only [List.nil_append, List.cons.injEq] at same
      exact begins (List.cons.inj (shape.symm.trans same.2.2.1)).1
    · simp at same
    · simp only [List.cons_append, List.nil_append, List.cons.injEq] at same
      exact name.closes last same.2.2.1
    · simp only [List.cons_append, List.nil_append, List.cons.injEq] at same
      have ends := congrArg List.getLast? same.2.2.2.1
      simp at ends
    · simp only [List.cons_append, List.nil_append, List.cons.injEq] at same
      obtain ⟨_, _, _, _, _, tail⟩ := same
      cases rest with
      | nil => simp at tail
      | cons second more =>
        rw [if_neg (by simp), segments_nestedBody name] at tail
        simp only [List.cons.injEq] at tail
        exact other tail.2.2.1.1.symm
    · simp only [List.cons_append, List.cons.injEq] at same
      obtain ⟨_, _, _, _, _, tail⟩ := same
      cases rest with
      | nil =>
        rw [if_pos (by simp)] at tail
        rcases front with _ | ⟨_, front⟩
        · simp at tail
        · simp at tail
      | cons second more =>
        rw [if_neg (by simp)] at tail
        rcases front with _ | ⟨_, front⟩
        · simp only [List.nil_append, List.cons.injEq] at tail
          have ends := congrArg List.getLast? tail.1
          simp at ends
        · rw [List.cons_append, List.cons.injEq] at tail
          exact ih (List.cons_ne_nil _ _) tail.2

theorem nested_search (name : FieldName field) {links : List (List Char × List Char)}
    {key value found before later : List Char} (length : found.length = field.length)
    (begins : found.head? = field.head?)
    (same : nested field links = before ++ '{' :: '"' :: (escape key ++ '"' :: ':' :: ' ' :: '{' ::
      '"' :: (found ++ '"' :: ':' :: ' ' :: '"' :: (escape value ++ '"' :: '}' :: '}' :: later)))) :
    links = [(key, value)] := by
  have opening := fun later => @segments_structure [':', ' ', '{'] (by decide) (by decide) later
  simp only [List.cons_append, List.nil_append] at opening
  obtain ⟨char, word, shape, _, mark, slash, colon⟩ := name.opens
  obtain ⟨rest, rfl⟩ : ∃ rest, found = char :: rest := by
    cases found with
    | nil => simp [shape] at begins
    | cons first rest =>
      rw [shape, List.head?_cons, List.head?_cons] at begins
      exact ⟨rest, by rw [Option.some.inj begins]⟩
  have begun : ∀ text : List Char, ∃ segment more,
      segments false (char :: text) = (char :: segment) :: more := by
    intro text
    rw [segments, if_neg Bool.false_ne_true, if_neg mark, decide_eq_false slash]
    cases cut : segments false text with
    | nil => exact absurd cut (segments_ne_nil false text)
    | cons first more => exact ⟨first, more, rfl⟩
  cases links with
  | nil =>
    have short := congrArg List.length same
    simp [nested, dumpsObject] at short
    omega
  | cons link links =>
    rw [nested_cons name] at same
    obtain ⟨front, last, cut, whole⟩ := segments_brace before _ false
    rw [← same] at cut
    have outer := @segments_structure ['{'] (by decide) (by decide)
      (nestedBody field (link :: links))
    simp only [List.cons_append, List.nil_append] at outer
    rw [outer, (inner_escape _).segments_mark, opening, List.cons_append] at cut
    obtain ⟨segment, more, started⟩ := begun (rest ++ '"' :: ':' :: ' ' :: '"' ::
      (escape value ++ '"' :: '}' :: '}' :: later))
    rw [started] at cut
    cases front with
    | cons first front =>
      exact absurd (List.cons.inj cut).2
        (nestedBody_aligned name (List.cons_ne_nil _ _) colon)
    | nil =>
      obtain ⟨opened, _⟩ := List.cons.inj cut
      have none : before = [] := by
        have sizes := congrArg List.length opened
        rw [whole rfl] at sizes
        simpa using sizes.symm
      subst none
      rw [List.nil_append, List.cons.injEq, List.cons.injEq] at same
      obtain ⟨_, _, same⟩ := same
      have keys := congrArg (segments false) same
      rw [segments_nestedBody name, (inner_escape _).segments_mark] at keys
      have first := escape_injective (List.cons.inj keys).1
      rw [nestedBody, first] at same
      have remains := List.append_cancel_left same
      simp only [List.cons.injEq, true_and] at remains
      obtain ⟨_, remains⟩ := List.append_inj remains length.symm
      simp only [List.cons.injEq, true_and] at remains
      have values := congrArg (segments false) remains
      rw [(inner_escape _).segments_mark, (inner_escape _).segments_mark] at values
      have second := escape_injective (List.cons.inj values).1
      rw [second] at remains
      have ends := List.append_cancel_left remains
      simp only [List.cons.injEq, true_and] at ends
      cases links with
      | nil => rw [← first, ← second]
      | cons other links => simp at ends

def lowerLink (link : List Char × List Char) : List Char × List Char :=
  (lower link.1, lower link.2)

theorem lower_nestedBody (name : FieldName field) (links : List (List Char × List Char)) :
    lower (nestedBody field links) = nestedBody field (links.map lowerLink) := by
  induction links with
  | nil => rfl
  | cons link rest ih =>
    rw [List.map_cons, nestedBody, nestedBody]
    have tail : lower (if rest.isEmpty then ['}'] else ',' :: ' ' :: '"' :: nestedBody field rest) =
        if (rest.map lowerLink).isEmpty then ['}']
        else ',' :: ' ' :: '"' :: nestedBody field (rest.map lowerLink) := by
      rw [List.isEmpty_map]
      split
      · rfl
      · rw [lower_cons, lower_cons, lower_cons, ih]
        rfl
    simp only [lower_append, lower_cons, lower_escape, name.lowered, tail, lowerLink]
    rfl

theorem lower_nested (name : FieldName field) (links : List (List Char × List Char)) :
    lower (nested field links) = nested field (links.map lowerLink) := by
  cases links with
  | nil => rfl
  | cons link rest =>
    have body := lower_nestedBody name (link :: rest)
    rw [nested_cons name, lower_cons, lower_cons, body, List.map_cons, nested_cons name]
    rfl

theorem nested_single (name : FieldName field) (key value : List Char) :
    nested field [(key, value)] =
      ('{' :: '"' :: (escape key ++ ['"', ':', ' ', '{', '"'])) ++
        (field ++ ('"' :: ':' :: ' ' :: '"' :: (escape value ++ ['"', '}', '}']))) := by
  rw [nested_cons name, nestedBody]
  simp

theorem lower_single (key value : List Char) :
    [(lower key, lower value)] = [(key, value)].map lowerLink := rfl

theorem like_nested_iff (name : FieldName field) {links : List (List Char × List Char)}
    {key value : List Char} (plainKey : '%' ∉ key ∧ '_' ∉ key)
    (plainValue : '%' ∉ value ∧ '_' ∉ value) :
    like ('%' :: (nested field [(key, value)] ++ ['%'])) (nested field links) = true ↔
      links.map lowerLink = [(lower key, lower value)] := by
  have letters : '%' ∉ escapeLetters ∧ '_' ∉ escapeLetters := by decide
  have percents := fun text free => @not_mem_escape text '%' letters.1 free
  have signs := fun text free => @not_mem_escape text '_' letters.2 free
  constructor
  · intro matched
    rw [nested_single name, List.append_assoc, List.append_assoc] at matched
    obtain ⟨before, _, split, matched⟩ := Like.like_percent.mp matched
    obtain ⟨opened, _, rfl, opens, matched⟩ :=
      (Like.like_append (by simp [percents key plainKey.1])).mp matched
    obtain ⟨found, _, rfl, between, matched⟩ := (Like.like_append name.fixed).mp matched
    obtain ⟨closed, later, rfl, closes, _⟩ :=
      (Like.like_append (by simp [percents value plainValue.1])).mp matched
    rw [Like.forall₂_fits_iff (by simp [signs key plainKey.2])] at opens
    rw [Like.forall₂_fits_iff (by simp [signs value plainValue.2])] at closes
    have begins : (lower found).head? = field.head? := by
      obtain ⟨first, rest, rfl, wild, _⟩ := name.opens
      cases between with
      | cons same _ =>
        have kept := (List.cons.inj name.lowered).1
        rcases same with sign | same
        · exact absurd sign wild
        · rw [lower_cons, List.head?_cons, List.head?_cons, ← same, kept]
    have sized : (lower found).length = field.length := by
      rw [lower, List.length_map, between.length_eq]
    have lowered := congrArg lower split
    simp only [lower_append, ← opens, ← closes, lower_nested name, lower_cons, Like.lower_nil,
      lower_escape] at lowered
    have parts : nested field (links.map lowerLink) = lower before ++ '{' :: '"' ::
        (escape (lower key) ++ '"' :: ':' :: ' ' :: '{' :: '"' :: (lower found ++ '"' :: ':' ::
          ' ' :: '"' :: (escape (lower value) ++ '"' :: '}' :: '}' :: lower later))) := by
      rw [lowered]
      simp
    exact nested_search name sized begins parts
  · intro same
    have fixed : '%' ∉ nested field [(key, value)] := by
      rw [nested_single name]
      simp [percents key plainKey.1, percents value plainValue.1, name.fixed]
    rw [Like.like_contains fixed]
    refine ⟨[], nested field links, [], by simp, Like.forall₂_fits_of_lower ?_⟩
    rw [lower_nested name, lower_nested name, same, lower_single]

end Nested

end OpenWebui.JsonText
