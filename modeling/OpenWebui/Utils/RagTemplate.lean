import OpenWebui.Base.Substitution
import OpenWebui.Base.Text

/-! `rag_template`: the context and the query are put into a template by one replacement after the
other. -/

namespace OpenWebui.Utils

open Substitution

/-- `[context]`. -/
def contextBrackets : List Char := "[context]".toList

/-- `{{CONTEXT}}`. -/
def contextBraces : List Char := "\x7b\x7bCONTEXT\x7d\x7d".toList

/-- `[query]`. -/
def queryBrackets : List Char := "[query]".toList

/-- `{{QUERY}}`. -/
def queryBraces : List Char := "\x7b\x7bQUERY\x7d\x7d".toList

def placeholders : List (List Char) := [contextBrackets, contextBraces, queryBrackets, queryBraces]

/-- What `rag_template` takes from the rest of the program: the default, the expansion of the
other placeholders, and a new id for each kind of query placeholder that it hides. -/
structure Templating where
  default_rag_template : List Char
  prompt_template : List Char → List Char
  uuid4 : List Char → List Char

def maskOf (templating : Templating) (original : List Char) : List Char :=
  "\x7b\x7bQUERY".toList ++ templating.uuid4 original ++ "\x7d\x7d".toList

def hide (templating : Templating) (context original : List Char)
    (before : List Char × List (List Char × List Char)) :
    List Char × List (List Char × List Char) :=
  if original <:+: context then
    (replace original (maskOf templating original) before.1,
      before.2 ++ [(maskOf templating original, original)])
  else before

def expanded (templating : Templating) (template : List Char) : List Char :=
  templating.prompt_template
    (if Text.strip template = [] then templating.default_rag_template else template)

def rag_template (templating : Templating) (template context query : List Char) : List Char :=
  let template := expanded templating template
  let (template, query_placeholders) := hide templating context queryBraces
    (hide templating context queryBrackets (template, []))
  let template := replace contextBrackets context template
  let template := replace contextBraces context template
  let template := replace queryBrackets query template
  let template := replace queryBraces query template
  query_placeholders.foldl (fun template hidden => replace hidden.1 hidden.2 template) template

def verbatim (context query : List Char) (placeholder : List Char) : List Char :=
  if placeholder = contextBrackets ∨ placeholder = contextBraces then context
  else if placeholder = queryBrackets ∨ placeholder = queryBraces then query
  else placeholder

def filledTemplate (template context query : List Char) : List Char :=
  substitute placeholders (verbatim context query) template

section Steps

variable (template context query : List Char)

def withBrackets : List Char :=
  substitute placeholders (Function.update id contextBrackets context) template

def withContext : List Char :=
  substitute placeholders
    (Function.update (Function.update id contextBrackets context) contextBraces context) template

def withQuery : List Char :=
  substitute placeholders
    (Function.update (Function.update (Function.update id contextBrackets context) contextBraces
      context) queryBrackets query) template

/-- What is filled in makes no placeholder that is filled later, be it its own or one that begins
or ends in the template; and no query placeholder of the template is also in the context. -/
structure Untouched : Prop where
  braces : occurrences contextBraces (withBrackets template context) =
    occurrences contextBraces template
  query_brackets : occurrences queryBrackets (withContext template context) =
    occurrences queryBrackets template
  query_braces : occurrences queryBraces (withQuery template context query) =
    occurrences queryBraces template
  unhidden : ∀ original ∈ [queryBrackets, queryBraces], original <:+: context →
    occurrences original template = 0

end Steps

theorem placeholders_apart : Apart placeholders := by decide

theorem placeholders_filled : ∀ placeholder ∈ placeholders, placeholder ≠ [] := by decide

variable {templating : Templating} {template context query : List Char}

theorem replace_substitute {placeholder : List Char} (member : placeholder ∈ placeholders)
    {value : List Char → List Char} (kept : value placeholder = placeholder)
    (count : occurrences placeholder (substitute placeholders value template) =
      occurrences placeholder template) (new : List Char) :
    replace placeholder new (substitute placeholders value template) =
      substitute placeholders (Function.update value placeholder new) template := by
  refine replace_fill (placeholders_filled placeholder member) kept ?_ new
  rw [own_tokens placeholders_filled placeholders_apart member]
  exact count

theorem substitute_id : substitute placeholders id template = template :=
  fill_tokens placeholders_filled template

theorem update_eq_verbatim :
    Function.update (Function.update (Function.update (Function.update id contextBrackets context)
      contextBraces context) queryBrackets query) queryBraces query = verbatim context query := by
  funext placeholder
  simp only [Function.update_apply, verbatim, id]
  by_cases brackets : placeholder = contextBrackets
  · subst brackets
    rw [if_neg (by decide), if_neg (by decide), if_neg (by decide), if_pos rfl,
      if_pos (Or.inl rfl)]
  · by_cases braces : placeholder = contextBraces
    · subst braces
      rw [if_neg (by decide), if_neg (by decide), if_pos rfl, if_pos (Or.inr rfl)]
    · simp only [brackets, braces, if_false, or_self]
      by_cases query_brackets : placeholder = queryBrackets
      · simp [query_brackets]
      · simp [query_brackets]

theorem replace_all (untouched : Untouched template context query) :
    replace queryBraces query (replace queryBrackets query (replace contextBraces context
      (replace contextBrackets context template))) = filledTemplate template context query := by
  have first : replace contextBrackets context template = withBrackets template context := by
    have step := @replace_substitute template contextBrackets (by decide) id rfl
      (by rw [substitute_id]) context
    rwa [substitute_id] at step
  have second : replace contextBraces context (withBrackets template context) =
      withContext template context :=
    replace_substitute (by decide) (Function.update_of_ne (by decide) ..) untouched.braces context
  have third : replace queryBrackets query (withContext template context) =
      withQuery template context query :=
    replace_substitute (by decide)
      (by rw [Function.update_of_ne (by decide), Function.update_of_ne (by decide), id])
      untouched.query_brackets query
  have fourth : replace queryBraces query (withQuery template context query) =
      filledTemplate template context query := by
    rw [filledTemplate, ← update_eq_verbatim]
    exact replace_substitute (by decide)
      (by rw [Function.update_of_ne (by decide), Function.update_of_ne (by decide),
        Function.update_of_ne (by decide), id])
      untouched.query_braces query
  rw [first, second, third, fourth]

theorem hide_fst {original : List Char} {before : List Char × List (List Char × List Char)}
    (unhidden : original <:+: context → occurrences original before.1 = 0) :
    (hide templating context original before).1 = before.1 := by
  rw [hide]
  split
  · rename_i present
    exact replace_of_absent (unhidden present) _
  · rfl

theorem mem_hide {original : List Char} {before : List Char × List (List Char × List Char)}
    {entry : List Char × List Char} (member : entry ∈ (hide templating context original before).2) :
    entry ∈ before.2 ∨ entry.1 = maskOf templating original := by
  rw [hide] at member
  split at member
  · rcases List.mem_append.mp member with earlier | last
    · exact Or.inl earlier
    · rw [List.mem_singleton.mp last]
      exact Or.inr rfl
  · exact Or.inl member

theorem foldl_replace_of_absent {hidden : List (List Char × List Char)} {text : List Char}
    (absent : ∀ entry ∈ hidden, occurrences entry.1 text = 0) :
    hidden.foldl (fun text entry => replace entry.1 entry.2 text) text = text := by
  induction hidden with
  | nil => rfl
  | cons entry rest ih =>
    rw [List.foldl_cons, replace_of_absent (absent entry (List.mem_cons_self ..))]
    exact ih (fun other member => absent other (List.mem_cons_of_mem _ member))

/-- The context and the query stand in the template as they are, where what is filled in touches
nothing else. -/
theorem rag_template_eq (templating : Templating) (template context query : List Char)
    (untouched : Untouched (expanded templating template) context query)
    (fresh : ∀ original ∈ [queryBrackets, queryBraces],
      occurrences (maskOf templating original)
        (filledTemplate (expanded templating template) context query) = 0) :
    rag_template templating template context query =
      filledTemplate (expanded templating template) context query := by
  have first : (hide templating context queryBrackets (expanded templating template, [])).1 =
      expanded templating template :=
    hide_fst (untouched.unhidden queryBrackets (by simp))
  have second : (hide templating context queryBraces
      (hide templating context queryBrackets (expanded templating template, []))).1 =
        expanded templating template := by
    rw [hide_fst, first]
    rw [first]
    exact untouched.unhidden queryBraces (by simp)
  rw [rag_template]
  dsimp only
  rw [second, replace_all untouched]
  apply foldl_replace_of_absent
  intro entry member
  rcases mem_hide member with earlier | same
  · rcases mem_hide earlier with none | same
    · exact absurd none List.not_mem_nil
    · rw [same]
      exact fresh _ (by simp)
  · rw [same]
    exact fresh _ (by simp)

section Samples

def sampleTemplating : Templating where
  default_rag_template := []
  prompt_template := id
  uuid4 _ := "7f9c24e8-3b12-4fef-91e0-5d9f0c6a7b21".toList

def sampleTemplate : List Char := "Use [context] to answer [query]".toList

theorem sample_verbatim :
    rag_template sampleTemplating sampleTemplate "a [context] of text".toList "why?".toList =
      "Use a [context] of text to answer why?".toList := by
  rw [rag_template_eq sampleTemplating sampleTemplate "a [context] of text".toList "why?".toList
    ⟨by decide +kernel, by decide +kernel, by decide +kernel, by decide +kernel⟩ (by decide +kernel)]
  decide +kernel

/-- A context with a query placeholder gets the query, and the template loses it. -/
theorem query_put_into_context :
    ¬ ∀ (templating : Templating) (template context query : List Char),
      (∀ original ∈ [queryBrackets, queryBraces], ∀ text ∈ [expanded templating template, context,
        query], occurrences (maskOf templating original) text = 0) →
        rag_template templating template context query =
          filledTemplate (expanded templating template) context query := by
  intro always
  have same := always sampleTemplating sampleTemplate "a [query] of text".toList "why?".toList
    (by decide +kernel)
  have code : rag_template sampleTemplating sampleTemplate "a [query] of text".toList
      "why?".toList = "Use a why? of text to answer [query]".toList := by decide +kernel
  have claimed : filledTemplate (expanded sampleTemplating sampleTemplate)
      "a [query] of text".toList "why?".toList =
        "Use a [query] of text to answer why?".toList := by decide +kernel
  rw [code, claimed] at same
  exact absurd same (by decide +kernel)

end Samples

end OpenWebui.Utils
