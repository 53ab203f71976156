import OpenWebui.Base.Numbering
import OpenWebui.Base.Json

/-! The tool calls that a streamed response is put together from: every delta carries a fragment of
the call with its index. -/

namespace OpenWebui.StreamedCalls

variable {ι : Type}

/-- The `arguments` of a delta or a call: missing or null, a text, or another value. -/
inductive Arguments where
  | none
  | text (given : List Char)
  | other (given : Json)
  deriving Inhabited

/-- An entry of `tool_calls` of a delta. The name is missing where there is no `function`. -/
structure Delta (ι : Type) where
  index : Option ι
  id : Option String
  name : Option String
  arguments : Arguments

structure ToolCall (ι : Type) where
  index : ι
  id : Option String
  name : String
  arguments : Arguments

section Call

variable (dumps : Json → List Char)

def Arguments.written : Arguments → List Char
  | .none => []
  | .text given => given
  | .other given => dumps given

def begin_tool_call (index : ι) (delta : Delta ι) : ToolCall ι where
  index := index
  id := delta.id
  name := delta.name.getD ""
  arguments := .text (delta.arguments.written dumps)

def updated_name (name : String) : Option String → String
  | none => name
  | some delta_name => if delta_name = "" then name else delta_name

def Arguments.started : Arguments → List Char
  | .text given => given
  | _ => []

def update_tool_call (call : ToolCall ι) (delta : Delta ι) : ToolCall ι where
  index := call.index
  id := call.id
  name := updated_name call.name delta.name
  arguments :=
    match delta.arguments with
    | .none => call.arguments
    | .text given => .text (call.arguments.started ++ given)
    | .other given => .text (call.arguments.started ++ dumps given)

end Call

section Accumulate

variable [DecidableEq ι] (dumps : Json → List Char)

def change_tool_call (index : ι) (change : ToolCall ι → ToolCall ι) :
    List (ToolCall ι) → List (ToolCall ι)
  | [] => []
  | call :: rest =>
    if call.index = index then change call :: rest else call :: change_tool_call index change rest

/-- One entry of `delta_tool_calls`. -/
def delta_tool_call (response_tool_calls : List (ToolCall ι)) (delta : Delta ι) :
    List (ToolCall ι) :=
  match delta.index with
  | none => response_tool_calls
  | some index =>
    if index ∈ response_tool_calls.map ToolCall.index then
      change_tool_call index (fun call => update_tool_call dumps call delta) response_tool_calls
    else response_tool_calls ++ [begin_tool_call dumps index delta]

def stream_tool_calls (deltas : List (Delta ι)) : List (ToolCall ι) :=
  deltas.foldl (delta_tool_call dumps) []

def fragments (index : ι) (deltas : List (Delta ι)) : List (Delta ι) :=
  deltas.filter (fun delta => decide (delta.index = some index))

def appearances (deltas : List (Delta ι)) : List ι := firsts id (deltas.filterMap Delta.index)

def assemble (index : ι) : List (Delta ι) → ToolCall ι
  | [] => ⟨index, none, "", .none⟩
  | first :: later => later.foldl (update_tool_call dumps) (begin_tool_call dumps index first)

theorem appearances_nodup (deltas : List (Delta ι)) : (appearances deltas).Nodup := by
  have distinct := keysInOrder_nodup id (deltas.filterMap Delta.index)
  rwa [keysInOrder, List.map_id] at distinct

theorem mem_appearances {index : ι} {deltas : List (Delta ι)} :
    index ∈ appearances deltas ↔ ∃ delta ∈ deltas, delta.index = some index := by
  have known : index ∈ keysInOrder id (deltas.filterMap Delta.index) ↔ _ := mem_keysInOrder
  rw [keysInOrder, List.map_id, List.map_id, List.mem_filterMap] at known
  exact known

theorem mem_appearances_iff_fragments {index : ι} {deltas : List (Delta ι)} :
    index ∈ appearances deltas ↔ fragments index deltas ≠ [] := by
  rw [mem_appearances]
  constructor
  · rintro ⟨delta, member, own⟩ nothing
    have kept : delta ∈ fragments index deltas :=
      List.mem_filter.mpr ⟨member, decide_eq_true own⟩
    rw [nothing] at kept
    cases kept
  · intro something
    obtain ⟨delta, kept⟩ := List.exists_mem_of_ne_nil _ something
    obtain ⟨member, own⟩ := List.mem_filter.mp kept
    exact ⟨delta, member, of_decide_eq_true own⟩

omit [DecidableEq ι] in
theorem index_foldl_update (call : ToolCall ι) (later : List (Delta ι)) :
    (later.foldl (update_tool_call dumps) call).index = call.index := by
  induction later generalizing call with
  | nil => rfl
  | cons delta rest ih => exact ih (update_tool_call dumps call delta)

omit [DecidableEq ι] in
theorem assemble_index (index : ι) (parts : List (Delta ι)) :
    (assemble dumps index parts).index = index := by
  cases parts with
  | nil => rfl
  | cons first later => exact index_foldl_update dumps _ later

omit [DecidableEq ι] in
theorem assemble_append {index : ι} {parts : List (Delta ι)} (nonempty : parts ≠ [])
    (delta : Delta ι) :
    assemble dumps index (parts ++ [delta]) =
      update_tool_call dumps (assemble dumps index parts) delta := by
  cases parts with
  | nil => exact absurd rfl nonempty
  | cons first later =>
    rw [List.cons_append, assemble, List.foldl_append]
    rfl

theorem change_tool_call_map {indices : List ι} (distinct : indices.Nodup) (index : ι)
    (change : ToolCall ι → ToolCall ι) {call : ι → ToolCall ι}
    (named : ∀ other, (call other).index = other) :
    change_tool_call index change (indices.map call) =
      indices.map (fun other => if other = index then change (call other) else call other) := by
  induction indices with
  | nil => rfl
  | cons first rest ih =>
    obtain ⟨absent, distinct⟩ := List.nodup_cons.mp distinct
    rw [List.map_cons, change_tool_call, named, List.map_cons]
    split
    · rename_i same
      congr 1
      apply List.map_congr_left
      intro other member
      rw [if_neg]
      rintro rfl
      exact absent (same ▸ member)
    · rw [ih distinct]

theorem map_index_assembled (deltas : List (Delta ι)) (indices : List ι) :
    (indices.map (fun index => assemble dumps index (fragments index deltas))).map
      ToolCall.index = indices := by
  rw [List.map_map]
  calc indices.map (ToolCall.index ∘ fun index => assemble dumps index (fragments index deltas))
      = indices.map id := List.map_congr_left fun index _ => assemble_index dumps index _
    _ = indices := List.map_id indices

theorem fragments_append (index : ι) (deltas : List (Delta ι)) (delta : Delta ι) :
    fragments index (deltas ++ [delta]) =
      if delta.index = some index then fragments index deltas ++ [delta]
      else fragments index deltas := by
  split
  · rename_i own
    simp [fragments, own]
  · rename_i other
    simp [fragments, other]

theorem stream_tool_calls_eq (deltas : List (Delta ι)) :
    stream_tool_calls dumps deltas = (appearances deltas).map (fun index =>
      assemble dumps index (fragments index deltas)) := by
  induction deltas using List.reverseRecOn with
  | nil => rfl
  | append_singleton deltas delta ih =>
    have folded : stream_tool_calls dumps (deltas ++ [delta]) =
        delta_tool_call dumps (stream_tool_calls dumps deltas) delta := by
      rw [stream_tool_calls, List.foldl_append]
      rfl
    rw [folded, ih, delta_tool_call]
    cases named : delta.index with
    | none =>
      have same : appearances (deltas ++ [delta]) = appearances deltas := by
        rw [appearances, List.filterMap_append]
        simp [named, appearances]
      rw [same]
      apply List.map_congr_left
      intro index _
      rw [fragments_append, named, if_neg (by simp)]
    | some index =>
      have more : appearances (deltas ++ [delta]) = appendNew id (appearances deltas) index := by
        rw [appearances, List.filterMap_append, firsts_append]
        simp [named, appearances]
      rw [more, appendNew]
      simp only [map_index_assembled, List.map_id, id_eq]
      split
      · rename_i known
        rw [change_tool_call_map (appearances_nodup deltas) index _
          (fun other => assemble_index dumps other _)]
        apply List.map_congr_left
        intro other _
        rw [fragments_append, named]
        split
        · rename_i same
          obtain rfl := same
          rw [if_pos rfl, assemble_append dumps (mem_appearances_iff_fragments.mp known)]
        · rename_i different
          rw [if_neg (fun same => different (Option.some.inj same).symm)]
      · rename_i unknown
        have nothing : fragments index deltas = [] := by
          by_contra something
          exact unknown (mem_appearances_iff_fragments.mpr something)
        rw [List.map_append, List.map_singleton, fragments_append, named, if_pos rfl, nothing]
        congr 1
        apply List.map_congr_left
        intro other member
        rw [fragments_append, named, if_neg]
        intro same
        exact unknown (Option.some.inj same ▸ member)

def argumentsText (parts : List (Delta ι)) : List Char :=
  parts.flatMap (fun delta => delta.arguments.written dumps)

omit [DecidableEq ι] in
theorem foldl_update_text {call : ToolCall ι} {text : List Char}
    (started : call.arguments = .text text) (later : List (Delta ι)) :
    (later.foldl (update_tool_call dumps) call).arguments =
      .text (text ++ argumentsText dumps later) := by
  induction later generalizing call text with
  | nil => rw [argumentsText, List.flatMap_nil, List.append_nil, List.foldl_nil, started]
  | cons delta rest ih =>
    have next : (update_tool_call dumps call delta).arguments =
        .text (text ++ delta.arguments.written dumps) := by
      rw [update_tool_call, started]
      cases delta.arguments with
      | none => rw [Arguments.written, List.append_nil]
      | text given => rfl
      | other given => rfl
    rw [List.foldl_cons, ih next, argumentsText, argumentsText, List.flatMap_cons,
      List.append_assoc]

omit [DecidableEq ι] in
theorem assemble_arguments (index : ι) {parts : List (Delta ι)} (nonempty : parts ≠ []) :
    (assemble dumps index parts).arguments = .text (argumentsText dumps parts) := by
  cases parts with
  | nil => exact absurd rfl nonempty
  | cons first later =>
    rw [assemble, foldl_update_text dumps rfl, argumentsText, argumentsText, List.flatMap_cons]

/-- A later delta names no other call. -/
def Repeats (name : String) (delta : Delta ι) : Prop :=
  delta.name = none ∨ delta.name = some "" ∨ delta.name = some name

omit [DecidableEq ι] in
theorem foldl_update_keeps {call : ToolCall ι} {later : List (Delta ι)}
    (repeats : ∀ delta ∈ later, Repeats call.name delta) :
    (later.foldl (update_tool_call dumps) call).id = call.id ∧
      (later.foldl (update_tool_call dumps) call).name = call.name := by
  induction later generalizing call with
  | nil => exact ⟨rfl, rfl⟩
  | cons delta rest ih =>
    have same : (update_tool_call dumps call delta).name = call.name := by
      rcases repeats delta List.mem_cons_self with missing | empty | again
      · rw [update_tool_call, missing, updated_name]
      · rw [update_tool_call, empty, updated_name, if_pos rfl]
      · rw [update_tool_call, again, updated_name]
        exact ite_id call.name
    have kept := ih (by
      intro delta member
      rw [same]
      exact repeats delta (List.mem_cons_of_mem _ member))
    exact ⟨kept.1, kept.2.trans same⟩

/-- The id and the name of a call come with its first delta. -/
def Announced (deltas : List (Delta ι)) : Prop :=
  ∀ (index : ι) (first : Delta ι) (later : List (Delta ι)),
    fragments index deltas = first :: later →
      (∃ id, first.id = some id) ∧
        ∃ name, first.name = some name ∧ ∀ delta ∈ later, Repeats name delta

/-- There is one call for each index in the order in which they appear, with the id and the name
of its first delta and the arguments of all its deltas. -/
structure Assembled (deltas : List (Delta ι)) (calls : List (ToolCall ι)) : Prop where
  indices : calls.map ToolCall.index = appearances deltas
  calls : ∀ call ∈ calls, ∃ first later, fragments call.index deltas = first :: later ∧
    call.id = first.id ∧ first.name = some call.name ∧
      call.arguments = .text (argumentsText dumps (fragments call.index deltas))

theorem stream_tool_calls_assembled {deltas : List (Delta ι)} (announced : Announced deltas) :
    Assembled dumps deltas (stream_tool_calls dumps deltas) := by
  rw [stream_tool_calls_eq]
  refine ⟨map_index_assembled dumps deltas _, ?_⟩
  intro call member
  obtain ⟨index, known, rfl⟩ := List.mem_map.mp member
  rw [assemble_index]
  have nonempty := mem_appearances_iff_fragments.mp known
  cases parts : fragments index deltas with
  | nil => exact absurd parts nonempty
  | cons first later =>
    obtain ⟨-, name, named, repeats⟩ := announced index first later parts
    have begun : (begin_tool_call dumps index first).name = name := by
      rw [begin_tool_call, named, Option.getD_some]
    have again : ∀ delta ∈ later, Repeats (begin_tool_call dumps index first).name delta := by
      rw [begun]
      exact repeats
    obtain ⟨sameId, sameName⟩ := foldl_update_keeps dumps again
    refine ⟨first, later, rfl, sameId, ?_, ?_⟩
    · rw [named, assemble, sameName, begun]
    · exact assemble_arguments dumps index (List.cons_ne_nil first later)

theorem stream_tool_calls_perm {first second : List (Delta ι)}
    (same : ∀ index, fragments index first = fragments index second) :
    (stream_tool_calls dumps first).Perm (stream_tool_calls dumps second) := by
  rw [stream_tool_calls_eq, stream_tool_calls_eq]
  have indices : (appearances first).Perm (appearances second) := by
    apply (List.perm_ext_iff_of_nodup (appearances_nodup first) (appearances_nodup second)).mpr
    intro index
    rw [mem_appearances_iff_fragments, mem_appearances_iff_fragments, same]
  simp only [same]
  exact indices.map _

end Accumulate

end OpenWebui.StreamedCalls
