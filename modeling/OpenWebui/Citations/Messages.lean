import OpenWebui.Base.Dict
import OpenWebui.Base.Json
import OpenWebui.Base.Numbering
import OpenWebui.Base.Text
import OpenWebui.Utils.RagTemplate

/-! The numbers that sources have in a prompt and in the lists of citations and titles. -/

namespace OpenWebui.Citations

structure SourceInfo where
  id : Option String
  name : Option String
  type : Option String
  deriving DecidableEq

structure Metadata where
  source : Option String
  name : Option String
  deriving DecidableEq

structure Source where
  source : SourceInfo
  document : List String
  metadata : List Metadata

/-- A document of a source, with its metadata where there is one. -/
structure Document where
  source : SourceInfo
  document : String
  metadata : Option Metadata

def truthy (text : Option String) : Option String := text.filter (fun text => decide (text ≠ ""))

def source_id (source : SourceInfo) (metadata : Metadata) : String :=
  ((truthy metadata.source).or (truthy source.id)).getD "N/A"

def sourceAttribute (name : String) (value : Option String) : String :=
  match truthy value with
  | some value => " " ++ name ++ "=\"" ++ value ++ "\""
  | none => ""

def addDocument (include_content : Bool) (source : SourceInfo)
    (state : String × Dict String Nat) (document : String × Metadata) : String × Dict String Nat :=
  let id := source_id source document.2
  let source_ids := addNumber state.2 id
  let body := if include_content then document.1 else ""
  (state.1 ++ "<source id=\"" ++ toString ((source_ids.get? id).getD 0) ++ "\"" ++
    sourceAttribute "name" source.name ++ sourceAttribute "resource-type" source.type ++
      sourceAttribute "resource-id" source.id ++ ">" ++ body ++ "</source>\n", source_ids)

def get_source_context (sources : List Source) (source_ids : Dict String Nat)
    (include_content : Bool) : String × Dict String Nat :=
  sources.foldl (fun state source =>
    (source.document.zip source.metadata).foldl (addDocument include_content source.source) state)
      ("", source_ids)

/-- The context after some rounds of tool calls: the sources of the files with their contents, then
those of the tools as marks. -/
def roundContext (files tools : List Source) : String × Dict String Nat :=
  let file_context := get_source_context files Dict.empty true
  let tool_context := get_source_context tools file_context.2 false
  (file_context.1 ++ tool_context.1, tool_context.2)

def documents (sources : List Source) : List Document :=
  sources.flatMap (fun source => source.document.zipIdx.map (fun document =>
    ⟨source.source, document.1, source.metadata[document.2]?⟩))

def numberedDocuments (sources : List Source) : List Document :=
  sources.flatMap (fun source => (source.document.zip source.metadata).map (fun document =>
    ⟨source.source, document.1, some document.2⟩))

def startsWith (text start : String) : Bool := start.toList.isPrefixOf text.toList

def isUrl (id : String) : Bool := startsWith id "http://" || startsWith id "https://"

/-- The title of a document in `getSourceIds`. -/
def title (document : Document) : String :=
  let id := (document.metadata.bind (fun metadata => metadata.source)).getD "N/A"
  match truthy (document.metadata.bind (fun metadata => metadata.name)) with
  | some name => name
  | none => if isUrl id then id else document.source.name.getD id

def getSourceIds (citations : Bool) (sources : List Source) : List String :=
  firsts id ((documents sources).map (fun document => if citations then title document else "N/A"))

def citationId (document : Document) : String :=
  ((document.metadata.bind (fun metadata => metadata.source)).or document.source.id).getD "N/A"

def citationSource (document : Document) : SourceInfo × Option String :=
  let named := match truthy (document.metadata.bind (fun metadata => metadata.name)) with
    | some name => { document.source with name := some name }
    | none => document.source
  let id := citationId document
  if isUrl id then ({ named with name := some id }, some id) else (named, none)

structure Citation where
  id : String
  source : SourceInfo × Option String
  document : List String
  metadata : List (Option Metadata)

def Citation.push (citation : Citation) (document : Document) : Citation :=
  { citation with
    document := citation.document ++ [document.document]
    metadata := citation.metadata ++ [document.metadata] }

def addCitation (citations : List Citation) (document : Document) : List Citation :=
  match citations with
  | [] => [⟨citationId document, citationSource document, [document.document],
      (document.metadata.map some).toList⟩]
  | citation :: rest =>
    if citation.id = citationId document then citation.push document :: rest
    else citation :: addCitation rest document

def citations (sources : List Source) : List Citation :=
  (documents sources).foldl addCitation []

def numberedKey (document : Document) : String :=
  source_id document.source (document.metadata.getD ⟨none, none⟩)

theorem numberedDocuments_append (first second : List Source) :
    numberedDocuments (first ++ second) = numberedDocuments first ++ numberedDocuments second := by
  simp [numberedDocuments]

theorem numbers_source (include_content : Bool) (source : SourceInfo)
    (given : List (String × Metadata)) {state : String × Dict String Nat} {before : List Document}
    (counted : Numbers state.2 (keysInOrder numberedKey before)) :
    Numbers (given.foldl (addDocument include_content source) state).2
      (keysInOrder numberedKey (before ++ given.map (fun document =>
        ⟨source, document.1, some document.2⟩))) := by
  induction given generalizing state before with
  | nil => simpa using counted
  | cons document rest ih =>
    have next : Numbers (addDocument include_content source state document).2 _ :=
      counted.addNumber (⟨source, document.1, some document.2⟩ : Document)
    have step := ih next
    simpa using step

theorem numbers_sources (include_content : Bool) (sources : List Source)
    {state : String × Dict String Nat} {before : List Document}
    (counted : Numbers state.2 (keysInOrder numberedKey before)) :
    Numbers (sources.foldl (fun state source =>
      (source.document.zip source.metadata).foldl (addDocument include_content source.source) state)
        state).2 (keysInOrder numberedKey (before ++ numberedDocuments sources)) := by
  induction sources generalizing state before with
  | nil => simpa [numberedDocuments] using counted
  | cons source rest ih =>
    have step := ih (numbers_source include_content source.source
      (source.document.zip source.metadata) counted)
    simpa [numberedDocuments, List.append_assoc] using step

theorem numbers_roundContext (files tools : List Source) :
    Numbers (roundContext files tools).2
      (keysInOrder numberedKey (numberedDocuments (files ++ tools))) := by
  have first : Numbers (get_source_context files Dict.empty true).2
      (keysInOrder numberedKey ([] ++ numberedDocuments files)) :=
    numbers_sources true files numbers_empty
  rw [List.nil_append] at first
  rw [numberedDocuments_append]
  exact numbers_sources false tools first

theorem addCitation_ids (citations : List Citation) (document : Document) :
    (addCitation citations document).map Citation.id =
      appendNew id (citations.map Citation.id) (citationId document) := by
  induction citations with
  | nil => rfl
  | cons citation rest ih =>
    unfold addCitation
    by_cases same : citation.id = citationId document
    · simp [same, appendNew, Citation.push]
    · rw [if_neg same, List.map_cons, ih]
      by_cases present : citationId document ∈ rest.map Citation.id
      · simp only [appendNew, List.map_id, id_eq, List.map_cons, present, if_true,
          List.mem_cons, or_true]
      · have absent : citationId document ∉ citation.id :: rest.map Citation.id :=
          fun inside => (List.mem_cons.mp inside).elim (fun equal => same equal.symm) present
        simp only [appendNew, List.map_id, id_eq, List.map_cons, present, absent, if_false,
          List.cons_append]

theorem citations_ids (sources : List Source) :
    (citations sources).map Citation.id = keysInOrder citationId (documents sources) := by
  have same : ∀ (given : List Document) (start : List Citation),
      (given.foldl addCitation start).map Citation.id =
        (given.map citationId).foldl (appendNew id) (start.map Citation.id) := by
    intro given
    induction given with
    | nil => exact fun _ => rfl
    | cons document rest ih =>
      intro start
      rw [List.foldl_cons, ih, addCitation_ids]
      rfl
  rw [keysInOrder_eq]
  exact same (documents sources) []

theorem getSourceIds_eq (sources : List Source) :
    getSourceIds true sources = keysInOrder title (documents sources) := by
  rw [keysInOrder_eq]
  rfl

/-- A number is shown as the citation that a document is collected in, and as its title. -/
structure Shown (sources : List Source) (document : Document) (n : Nat) : Prop where
  citation : ((citations sources).map Citation.id)[n - 1]? = some (citationId document)
  title : (getSourceIds true sources)[n - 1]? = some (title document)

/-- After every round, the number that the prompt has for the source of a document is shown so,
also with the sources of later rounds. -/
def Resolved (files tools : List Source) : Prop :=
  ∀ seen, seen <+: tools → ∀ document ∈ numberedDocuments (files ++ seen), ∀ n,
    (roundContext files seen).2.get? (numberedKey document) = some n →
      Shown (files ++ tools) document n

/-- The keys of the prompt, the ids of the citations and the titles tell the same numbered documents
apart, and documents without metadata bring no id and no title before those of numbered ones. -/
structure KeysAgree (numbered shown : List Document) : Prop where
  citation : ∀ one ∈ numbered, ∀ two ∈ numbered,
    numberedKey one = numberedKey two ↔ citationId one = citationId two
  title : ∀ one ∈ numbered, ∀ two ∈ numbered,
    numberedKey one = numberedKey two ↔ title one = title two
  citation_begins : keysInOrder citationId numbered <+: keysInOrder citationId shown
  title_begins : keysInOrder Citations.title numbered <+: keysInOrder Citations.title shown

/-- The numbers mean the same everywhere exactly when the keys agree. -/
theorem citation_numbers_iff (files tools : List Source) :
    Resolved files tools ↔
      KeysAgree (numberedDocuments (files ++ tools)) (documents (files ++ tools)) := by
  constructor
  · intro resolved
    have shown : ∀ document ∈ numberedDocuments (files ++ tools), ∀ place : Nat,
        (keysInOrder numberedKey (numberedDocuments (files ++ tools)))[place]? =
          some (numberedKey document) → Shown (files ++ tools) document (place + 1) := by
      intro document member place found
      exact resolved tools (List.prefix_refl tools) document member (place + 1)
        (((numbers_roundContext files tools).number_iff _ _).mpr ⟨place, rfl, found⟩)
    obtain ⟨citation, citation_begins⟩ := same_places_iff.mp
      (fun document member place found => by
        rw [← citations_ids]
        exact (shown document member place found).citation)
    obtain ⟨titles, title_begins⟩ := same_places_iff.mp
      (fun document member place found => by
        rw [← getSourceIds_eq]
        exact (shown document member place found).title)
    exact ⟨citation, titles, citation_begins, title_begins⟩
  · intro agree seen more document member n number
    obtain ⟨rest, rfl⟩ := more
    obtain ⟨place, rfl, found⟩ := ((numbers_roundContext files seen).number_iff _ _).mp number
    have whole : numberedDocuments (files ++ (seen ++ rest)) =
        numberedDocuments (files ++ seen) ++ numberedDocuments rest := by
      rw [← List.append_assoc, numberedDocuments_append]
    -- a number does not change when later rounds add sources
    have kept : (keysInOrder numberedKey (numberedDocuments (files ++ (seen ++ rest))))[place]? =
        some (numberedKey document) := by
      have begins := keysInOrder_extends numberedKey
        (List.prefix_append (numberedDocuments (files ++ seen)) (numberedDocuments rest))
      obtain ⟨inside, value⟩ := List.getElem?_eq_some_iff.mp found
      rw [whole, List.prefix_iff_getElem?.mp begins place inside, value]
    have listed : document ∈ numberedDocuments (files ++ (seen ++ rest)) := by
      rw [whole]
      exact List.mem_append_left _ member
    constructor
    · rw [citations_ids]
      exact same_places_iff.mpr ⟨agree.citation, agree.citation_begins⟩ document listed place kept
    · rw [getSourceIds_eq]
      exact same_places_iff.mpr ⟨agree.title, agree.title_begins⟩ document listed place kept

def searchSource : Source where
  source := ⟨some "search_web", some "search_web", none⟩
  document := ["Home", "Home", "Docs"]
  metadata := [⟨some "https://a.org", some "Home"⟩, ⟨some "https://b.org", some "Home"⟩,
    ⟨some "https://c.org", some "Docs"⟩]

/-- The second page has the number two, which is shown with the title of the third. -/
theorem searchSource_not_resolved :
    (roundContext [] [searchSource]).2.get? "https://b.org" = some 2 ∧
      getSourceIds true [searchSource] = ["Home", "Docs"] ∧ ¬ Resolved [] [searchSource] := by
  refine ⟨by decide, by decide, ?_⟩
  intro resolved
  have shown := resolved [searchSource] (List.prefix_refl _)
    ⟨searchSource.source, "Home", some ⟨some "https://b.org", some "Home"⟩⟩
    (.tail _ (.head _)) 2 (by decide)
  exact absurd shown.title (by decide)

end OpenWebui.Citations
