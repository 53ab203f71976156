import Mathlib.Data.List.Nodup
import OpenWebui.Base.Sequence
import OpenWebui.ToolCalls.Round

/-! When every call of a batch is answered once, and with the error about its arguments exactly
when they cannot be parsed. -/

namespace OpenWebui.ToolCalls

section Output

variable {environment : Environment}

@[simp] theorem callIds_append (first second : List OutputItem) :
    callIds (first ++ second) = callIds first ++ callIds second := by
  simp [callIds]

@[simp] theorem answerIds_append (first second : List OutputItem) :
    answerIds (first ++ second) = answerIds first ++ answerIds second := by
  simp [answerIds]

@[simp] theorem callIds_complete (output : List OutputItem) (call_id arguments : String) :
    callIds (complete output call_id arguments) = callIds output := by
  induction output with
  | nil => rfl
  | cons item rest ih =>
    cases item with
    | function_call id other name given status =>
      unfold complete
      split
      · rfl
      · simpa [callIds] using ih
    | _ => simpa [complete, callIds] using ih

theorem mem_complete {output : List OutputItem} {call_id arguments : String} {item : OutputItem}
    (member : item ∈ complete output call_id arguments)
    (answers : ∀ id call_id name arguments status,
      item ≠ .function_call id call_id name arguments status) : item ∈ output := by
  induction output with
  | nil => exact member
  | cons first rest ih =>
    cases first with
    | function_call id other name given status =>
      unfold complete at member
      split at member
      · rcases List.mem_cons.mp member with same | later
        · exact absurd same (answers _ _ _ _ _)
        · exact List.mem_cons_of_mem _ later
      · rcases List.mem_cons.mp member with same | later
        · exact absurd same (answers _ _ _ _ _)
        · exact List.mem_cons_of_mem _ (ih later)
    | _ =>
      rcases List.mem_cons.mp member with same | later
      · exact List.mem_cons.mpr (Or.inl same)
      · exact List.mem_cons_of_mem _ (ih later)

theorem callIds_completeAll (calls : List (Nat × ToolCall)) (arguments : Nat × ToolCall → String)
    (output : List OutputItem) :
    callIds (calls.foldl (fun output call => complete output call.2.id (arguments call)) output) =
      callIds output := by
  induction calls generalizing output with
  | nil => rfl
  | cons call rest ih => rw [List.foldl_cons, ih, callIds_complete]

theorem mem_completeAll (calls : List (Nat × ToolCall)) (arguments : Nat × ToolCall → String)
    {output : List OutputItem} {item : OutputItem}
    (member : item ∈ calls.foldl (fun output call => complete output call.2.id (arguments call)) output)
    (answers : ∀ id call_id name arguments status,
      item ≠ .function_call id call_id name arguments status) : item ∈ output := by
  induction calls generalizing output with
  | nil => exact member
  | cons call rest ih => exact mem_complete (ih member) answers

theorem callIds_announce {existing : List String} (batch : List ToolCall)
    (unused : ∀ call ∈ batch, call.id ∉ existing) (output : List OutputItem) :
    callIds (batch.foldl (announce environment existing) output) =
      callIds output ++ batch.map ToolCall.id := by
  induction batch generalizing output with
  | nil => simp
  | cons call rest ih =>
    rw [List.foldl_cons, ih (fun other member => unused other (by simp [member])), announce,
      if_neg (unused call (by simp)), callIds_append]
    simp [callIds]

theorem mem_announce {existing : List String} (batch : List ToolCall) {output : List OutputItem}
    {item : OutputItem} (member : item ∈ batch.foldl (announce environment existing) output)
    (answers : ∀ id call_id name arguments status,
      item ≠ .function_call id call_id name arguments status) : item ∈ output := by
  induction batch generalizing output with
  | nil => exact member
  | cons call rest ih =>
    have before := ih member
    unfold announce at before
    split at before
    · exact before
    · rcases List.mem_append.mp before with old | new
      · exact old
      · exact absurd (List.mem_singleton.mp new) (answers _ _ _ _ _)

end Output

section Execution

variable {environment : Environment}

theorem indexed_nodup (batch : List ToolCall) : ((indexed batch).map Prod.fst).Nodup := by
  have places : (indexed batch).map Prod.fst = List.range' 0 batch.length := by
    rw [indexed, List.map_map, ← List.zipIdx_map_snd 0 batch]
    rfl
  rw [places]
  exact List.nodup_range'

@[simp] theorem indexed_snd (batch : List ToolCall) : (indexed batch).map Prod.snd = batch := by
  rw [indexed, List.map_map]
  exact List.zipIdx_map_fst 0 batch

theorem indexed_inj {batch : List ToolCall} {first second : Nat × ToolCall}
    (one : first ∈ indexed batch) (two : second ∈ indexed batch) (same : first.1 = second.1) :
    first = second :=
  List.inj_on_of_nodup_map (indexed_nodup batch) one two same

theorem mem_executed {calls : List (Nat × ToolCall)} {done : List (Nat × Executed)}
    (finished : calls.mapM (fun call =>
      (execute_tool_call environment call).map (fun executed => (call.1, executed))) = .ok done) :
    (∀ call ∈ calls, ∃ executed, execute_tool_call environment call = .ok executed ∧
      (call.1, executed) ∈ done) ∧
    ∀ entry ∈ done, ∃ call ∈ calls, call.1 = entry.1 ∧
      execute_tool_call environment call = .ok entry.2 := by
  have paired := Sequence.mapM_eq_ok.mp finished
  constructor
  · intro call member
    obtain ⟨entry, there, executes⟩ := Sequence.exists_right paired member
    obtain ⟨executed, ok, rfl⟩ := map_eq_ok.mp executes
    exact ⟨executed, ok, there⟩
  · intro entry member
    obtain ⟨call, there, executes⟩ := Sequence.exists_left paired member
    obtain ⟨executed, ok, rfl⟩ := map_eq_ok.mp executes
    exact ⟨call, there, rfl, ok⟩

theorem executeAll_found {batch : List ToolCall} {done : List (Nat × Executed)}
    (finished : executeAll environment (indexed batch) = .ok done) {call : Nat × ToolCall}
    (member : call ∈ indexed batch) :
    ∃ executed, execute_tool_call environment call = .ok executed ∧
      done.lookup call.1 = some executed := by
  obtain ⟨first, one, rest⟩ := bind_eq_ok.mp finished
  obtain ⟨delegated, two, same⟩ := bind_eq_ok.mp rest
  obtain rfl := Except.ok.inj same
  obtain ⟨firstThere, firstOnly⟩ := mem_executed one
  obtain ⟨delegatedThere, delegatedOnly⟩ := mem_executed two
  have there : ∃ executed, execute_tool_call environment call = .ok executed ∧
      (call.1, executed) ∈ first ++ delegated := by
    by_cases delegation : call.2.name = "delegate_task"
    · obtain ⟨executed, ok, inside⟩ :=
        delegatedThere call (List.mem_filter.mpr ⟨member, decide_eq_true delegation⟩)
      exact ⟨executed, ok, List.mem_append_right _ inside⟩
    · obtain ⟨executed, ok, inside⟩ :=
        firstThere call (List.mem_filter.mpr ⟨member, decide_eq_true delegation⟩)
      exact ⟨executed, ok, List.mem_append_left _ inside⟩
  obtain ⟨executed, ok, inside⟩ := there
  refine ⟨executed, ok, ?_⟩
  cases found : (first ++ delegated).lookup call.1 with
  | none => exact absurd (List.mem_map_of_mem inside) (Assoc.lookup_eq_none.mp found)
  | some other =>
    have entry := Assoc.mem_of_lookup found
    have origin : ∃ source ∈ indexed batch, source.1 = call.1 ∧
        execute_tool_call environment source = .ok other := by
      rcases List.mem_append.mp entry with early | late
      · obtain ⟨source, kept, place, ran⟩ := firstOnly _ early
        exact ⟨source, (List.mem_filter.mp kept).1, place, ran⟩
      · obtain ⟨source, kept, place, ran⟩ := delegatedOnly _ late
        exact ⟨source, (List.mem_filter.mp kept).1, place, ran⟩
    obtain ⟨source, kept, place, ran⟩ := origin
    obtain rfl := indexed_inj kept member place
    exact congrArg some (Except.ok.inj (ran.symm.trans ok))

theorem executeAll_goes_through {calls : List (Nat × ToolCall)}
    (each : ∀ call ∈ calls, ∃ executed, execute_tool_call environment call = .ok executed) :
    ∃ done, executeAll environment calls = .ok done := by
  have part : ∀ keep : Nat × ToolCall → Bool, ∃ done, (calls.filter keep).mapM (fun call =>
      (execute_tool_call environment call).map (fun executed => (call.1, executed))) = .ok done := by
    intro keep
    refine Sequence.mapM_goes_through ?_
    intro call member
    obtain ⟨executed, ok⟩ := each call (List.mem_filter.mp member).1
    exact ⟨(call.1, executed), map_eq_ok.mpr ⟨executed, ok, rfl⟩⟩
  obtain ⟨first, one⟩ := part (fun call => decide (call.2.name ≠ "delegate_task"))
  obtain ⟨delegated, two⟩ := part (fun call => decide (call.2.name = "delegate_task"))
  exact ⟨first ++ delegated, bind_eq_ok.mpr ⟨first, one, bind_eq_ok.mpr ⟨delegated, two, rfl⟩⟩⟩

end Execution

section Writing

variable {environment : Environment}

theorem sortFiles_goes_through_iff (parts : List Part × List ToolFile) (file : ToolFile) :
    (∃ next, sortFiles parts file = .ok next) ↔ file ≠ .media "image" none := by
  cases file with
  | data content => simp [sortFiles]
  | media kind url =>
    by_cases image : kind = "image"
    · cases url with
      | none => simp [sortFiles, image]
      | some image_url => by_cases data : startsWith image_url "data:" = true <;>
          simp [sortFiles, image, data]
    · simp [sortFiles, image]

theorem sortFiles_head {parts next : List Part × List ToolFile} {file : ToolFile} {first : Part}
    (headed : ∃ rest, parts.1 = first :: rest) (done : sortFiles parts file = .ok next) :
    ∃ rest, next.1 = first :: rest := by
  obtain ⟨rest, same⟩ := headed
  unfold sortFiles at done
  split at done
  · split at done
    · split at done
      · cases done
      · split at done <;> obtain rfl := Except.ok.inj done <;> simp [same]
    · obtain rfl := Except.ok.inj done
      exact ⟨rest, same⟩
  · obtain rfl := Except.ok.inj done
    exact ⟨rest, same⟩

theorem foldlM_sortFiles_head {files : List ToolFile} {parts last : List Part × List ToolFile}
    {first : Part} (headed : ∃ rest, parts.1 = first :: rest)
    (done : files.foldlM sortFiles parts = .ok last) : ∃ rest, last.1 = first :: rest := by
  induction files generalizing parts with
  | nil =>
    obtain rfl := Except.ok.inj done
    exact headed
  | cons file later ih =>
    rw [List.foldlM_cons] at done
    obtain ⟨next, step, finished⟩ := bind_eq_ok.mp done
    exact ih (sortFiles_head headed step) finished

/-- The files of an answer can be written to the output. -/
def Writable (result : Result) : Prop := ∀ file ∈ result.files, file ≠ .media "image" none

/-- The item that an answer is written as. -/
def WrittenAs (result : Result) (item : OutputItem) : Prop :=
  ∃ id parts files, item = .function_call_output id result.tool_call_id
    (.input_text result.content :: parts) files result.embeds

theorem writeAnswer_goes_through_iff (output : List OutputItem) (result : Result) :
    (∃ next, writeAnswer environment output result = .ok next) ↔ Writable result := by
  constructor
  · rintro ⟨next, done⟩ file member
    obtain ⟨sorted, finished, _⟩ := map_eq_ok.mp done
    obtain ⟨state, after, step⟩ := Sequence.foldlM_each finished file member
    exact (sortFiles_goes_through_iff state file).mp ⟨after, step⟩
  · intro writable
    obtain ⟨sorted, finished⟩ := Sequence.foldlM_goes_through
      (fun file member state => (sortFiles_goes_through_iff state file).mpr (writable file member))
      ([.input_text result.content], [])
    exact ⟨_, map_eq_ok.mpr ⟨sorted, finished, rfl⟩⟩

theorem writeAnswer_appends {output next : List OutputItem} {result : Result}
    (done : writeAnswer environment output result = .ok next) :
    ∃ item, next = output ++ [item] ∧ WrittenAs result item := by
  obtain ⟨sorted, finished, rfl⟩ := map_eq_ok.mp done
  obtain ⟨rest, same⟩ := foldlM_sortFiles_head ⟨[], rfl⟩ finished
  exact ⟨_, rfl, _, rest, sorted.2, by rw [same]⟩

theorem foldlM_writeAnswer {results : List Result} {output last : List OutputItem}
    (done : results.foldlM (writeAnswer environment) output = .ok last) :
    ∃ items, last = output ++ items ∧ List.Forall₂ WrittenAs results items := by
  induction results generalizing output with
  | nil =>
    obtain rfl := Except.ok.inj done
    exact ⟨[], (List.append_nil output).symm, .nil⟩
  | cons result rest ih =>
    rw [List.foldlM_cons] at done
    obtain ⟨next, step, finished⟩ := bind_eq_ok.mp done
    obtain ⟨item, rfl, written⟩ := writeAnswer_appends step
    obtain ⟨items, rfl, others⟩ := ih finished
    exact ⟨item :: items, by simp, .cons written others⟩

theorem answerIds_written {results : List Result} {items : List OutputItem}
    (written : List.Forall₂ WrittenAs results items) :
    answerIds items = results.map Result.tool_call_id := by
  induction written with
  | nil => rfl
  | cons one _ ih =>
    obtain ⟨id, parts, files, rfl⟩ := one
    simpa [answerIds] using ih

theorem callIds_written {results : List Result} {items : List OutputItem}
    (written : List.Forall₂ WrittenAs results items) : callIds items = [] := by
  induction written with
  | nil => rfl
  | cons one _ ih =>
    obtain ⟨id, parts, files, rfl⟩ := one
    simpa [callIds] using ih

end Writing

section Round

variable {environment : Environment}

/-- A call is executed, and its result becomes an answer. -/
def CallAnswered (environment : Environment) (call : Nat × ToolCall) (result : Result) : Prop :=
  ∃ executed, execute_tool_call environment call = .ok executed ∧
    answer environment call.2 executed = .ok result

theorem callAnswered_unique {call : Nat × ToolCall} {first second : Result}
    (one : CallAnswered environment call first) (two : CallAnswered environment call second) :
    first = second := by
  obtain ⟨executed, ran, done⟩ := one
  obtain ⟨other, again, other_done⟩ := two
  obtain rfl := Except.ok.inj (ran.symm.trans again)
  exact Except.ok.inj (done.symm.trans other_done)

theorem answer_tool_call_id {call : ToolCall} {executed : Executed} {result : Result}
    (done : answer environment call executed = .ok result) : result.tool_call_id = call.id := by
  unfold answer at done
  split at done
  · obtain rfl := Except.ok.inj done
    rfl
  · obtain ⟨processed, _, later⟩ := bind_eq_ok.mp done
    obtain ⟨_, _, same⟩ := bind_eq_ok.mp later
    obtain rfl := Except.ok.inj same
    rfl

/-- What a round that goes through leaves: what was there, the announced calls, and one answer for
each call in order. -/
structure RoundLeaves (environment : Environment) (output : List OutputItem) (batch : List ToolCall)
    (left : List OutputItem) (results : List Result) (completed items : List OutputItem) : Prop where
  answered : List.Forall₂ (CallAnswered environment) (indexed batch) results
  written : List.Forall₂ WrittenAs results items
  same : ∃ id, left = completed ++ items ++ [.message id ""]
  calls : callIds completed = callIds (batch.foldl (announce environment (callIds output)) output)
  old : ∀ item ∈ completed, (∀ id call_id name arguments status,
    item ≠ .function_call id call_id name arguments status) → item ∈ output

theorem tool_round_leaves {output left : List OutputItem} {batch : List ToolCall}
    (done : tool_round environment output batch = .ok left) :
    ∃ results completed items,
      RoundLeaves environment output batch left results completed items := by
  unfold tool_round at done
  obtain ⟨tool_results, executed, later⟩ := bind_eq_ok.mp done
  obtain ⟨results, answered, later⟩ := bind_eq_ok.mp later
  obtain ⟨last, wrote, same⟩ := bind_eq_ok.mp later
  obtain rfl := Except.ok.inj same
  obtain ⟨items, rfl, written⟩ := foldlM_writeAnswer wrote
  refine ⟨results, _, items, ?_, written, ⟨_, rfl⟩, ?_, ?_⟩
  · have each := Sequence.mapM_eq_ok.mp answered
    rw [List.forall₂_iff_zip] at each ⊢
    refine ⟨each.1, ?_⟩
    intro call result pair
    obtain ⟨found, ran, at_place⟩ :=
      executeAll_found executed (List.of_mem_zip pair).1
    have result_ok := each.2 pair
    rw [at_place] at result_ok
    exact ⟨found, ran, result_ok⟩
  · exact callIds_completeAll _ _ _
  · intro item member answers
    exact mem_announce batch (mem_completeAll _ _ member answers) answers

theorem tool_round_goes_through_iff (output : List OutputItem) (batch : List ToolCall) :
    (∃ left, tool_round environment output batch = .ok left) ↔
      ∀ call ∈ indexed batch, ∃ result, CallAnswered environment call result ∧ Writable result := by
  constructor
  · rintro ⟨left, done⟩ call member
    unfold tool_round at done
    obtain ⟨tool_results, executed, later⟩ := bind_eq_ok.mp done
    obtain ⟨results, answered, later⟩ := bind_eq_ok.mp later
    obtain ⟨last, wrote, _⟩ := bind_eq_ok.mp later
    obtain ⟨found, ran, at_place⟩ := executeAll_found executed member
    obtain ⟨result, there, result_ok⟩ :=
      Sequence.exists_right (Sequence.mapM_eq_ok.mp answered) member
    rw [at_place] at result_ok
    obtain ⟨state, next, step⟩ := Sequence.foldlM_each wrote result there
    exact ⟨result, ⟨found, ran, result_ok⟩, (writeAnswer_goes_through_iff state result).mp ⟨next, step⟩⟩
  · intro each
    have executes : ∀ call ∈ indexed batch, ∃ executed,
        execute_tool_call environment call = .ok executed := by
      intro call member
      obtain ⟨_, ⟨executed, ran, _⟩, _⟩ := each call member
      exact ⟨executed, ran⟩
    refine Sequence.bind_goes_through (executeAll_goes_through executes)
      (fun tool_results executed => ?_)
    refine Sequence.bind_goes_through (Sequence.mapM_goes_through ?_) (fun results answered => ?_)
    · intro call member
      obtain ⟨result, ⟨ran, execution, answered⟩, _⟩ := each call member
      obtain ⟨found, again, at_place⟩ := executeAll_found executed member
      obtain rfl := Except.ok.inj (execution.symm.trans again)
      exact ⟨result, by rw [at_place]; exact answered⟩
    have writable : ∀ result ∈ results, Writable result := by
      intro result member
      obtain ⟨call, there, ok⟩ := Sequence.exists_left (Sequence.mapM_eq_ok.mp answered) member
      obtain ⟨other, ⟨ran, execution, other_ok⟩, kept⟩ := each call there
      obtain ⟨found, again, at_place⟩ := executeAll_found executed there
      obtain rfl := Except.ok.inj (execution.symm.trans again)
      rw [at_place] at ok
      obtain rfl := Except.ok.inj (other_ok.symm.trans ok)
      exact kept
    refine Sequence.bind_goes_through (Sequence.foldlM_goes_through (fun result member state =>
      (writeAnswer_goes_through_iff state result).mpr (writable result member)) _)
        (fun last wrote => ⟨_, rfl⟩)

end Round

section Call

variable (environment : Environment)

/-- A text of arguments parses as JSON or as a literal; blank text is no arguments. -/
def Parses (arguments : String) : Prop :=
  Text.blank arguments.toList = true ∨ (∃ value, environment.loads arguments = .value value) ∨
    ∃ value, environment.literal_eval arguments = .ok value

/-- What a tool answered is something that becomes a text, other than the one about arguments, and
its images are stored. -/
def Responds (name : String) (params result : PyValue) (tool : Option Tool) : Prop :=
  result ≠ .none ∧ ∃ processed,
    process_tool_result environment.toRuntime name result (tool.map (fun tool => tool.type))
      (tool.any (fun tool => tool.direct)) = .ok processed ∧
    terminal_event_handler environment.toRuntime name params processed.text = .ok () ∧
    (∀ file ∈ processed.files, file ≠ .media "image" none) ∧
    processed.text.getD "" ≠ unparsed name

/-- The arguments do not parse; or they are something that can be written as JSON, an object where
there is such a tool, and the tool, or the text that there is none, responds. -/
def Answerable (call : Nat × ToolCall) : Prop :=
  match readArguments environment call.2.arguments with
  | none => True
  | some params => params ≠ .none ∧ params.dumpable = true ∧
    match environment.tools.get? call.2.name with
    | none => Responds environment call.2.name params (.str (notFound call.2.name)) none
    | some tool => ∃ items, params = .dict items ∧
      Responds environment call.2.name (.dict (allowedParams tool items))
        (callTool environment call.1 (allowedParams tool items)) (some tool)

variable {environment}

theorem readArguments_eq_none {arguments : String} :
    readArguments environment arguments = none ↔ ¬ Parses environment arguments := by
  unfold readArguments Parses
  simp only [Text.strip_eq_nil]
  by_cases blank : Text.blank arguments.toList = true
  · simp [blank]
  · cases loaded : environment.loads arguments with
    | value value => simp [blank]
    | _ => cases read : environment.literal_eval arguments <;> simp [blank, Except.toOption]

theorem answer_iff {call : ToolCall} {executed : Executed} :
    (∃ result, answer environment call executed = .ok result ∧ Writable result ∧
      result.content ≠ unparsed call.name) ↔
      Responds environment call.name executed.params executed.result executed.tool := by
  unfold Responds
  constructor
  · rintro ⟨result, done, writable, other⟩
    unfold answer at done
    split at done
    · obtain rfl := Except.ok.inj done
      exact absurd rfl other
    · rename_i something
      obtain ⟨processed, processes, later⟩ := bind_eq_ok.mp done
      obtain ⟨_, handles, same⟩ := bind_eq_ok.mp later
      obtain rfl := Except.ok.inj same
      exact ⟨something, processed, processes, handles, writable, other⟩
  · rintro ⟨something, processed, processes, handles, writable, other⟩
    refine ⟨⟨call.id, processed.text.getD "", processed.files, processed.embeds⟩, ?_, writable, other⟩
    unfold answer
    split
    · rename_i nothing
      exact absurd nothing something
    · exact bind_eq_ok.mpr ⟨processed, processes, bind_eq_ok.mpr ⟨(), handles, rfl⟩⟩

theorem callAnswered_of_execute {call : Nat × ToolCall} {executed : Executed}
    (ran : execute_tool_call environment call = .ok executed) :
    (∃ result, CallAnswered environment call result ∧ Writable result ∧
      result.content ≠ unparsed call.2.name) ↔
      Responds environment call.2.name executed.params executed.result executed.tool := by
  rw [← answer_iff]
  constructor
  · rintro ⟨result, ⟨other, again, answered⟩, kept⟩
    obtain rfl := Except.ok.inj (ran.symm.trans again)
    exact ⟨result, answered, kept⟩
  · rintro ⟨result, answered, kept⟩
    exact ⟨result, ⟨executed, ran, answered⟩, kept⟩

theorem answer_nothing {call : ToolCall} {executed : Executed} (nothing : executed.result = .none) :
    answer environment call executed = .ok ⟨call.id, unparsed call.name, [], []⟩ := by
  rw [answer, nothing]

theorem execute_tool_call_unparsed {call : Nat × ToolCall}
    (read : readArguments environment call.2.arguments = none) :
    execute_tool_call environment call =
      .ok ⟨.dict [], .none, none, call.2.arguments⟩ := by
  rw [execute_tool_call, parse_tool_params, read]
  rfl

theorem execute_tool_call_null {call : Nat × ToolCall}
    (read : readArguments environment call.2.arguments = some .none) :
    ∃ arguments, execute_tool_call environment call =
      .ok ⟨.dict [], .none, none, arguments⟩ := by
  rw [execute_tool_call, parse_tool_params, read]
  exact ⟨_, rfl⟩

theorem execute_tool_call_parsed {call : Nat × ToolCall} {params : PyValue}
    (read : readArguments environment call.2.arguments = some params) (something : params ≠ .none)
    (dumpable : params.dumpable = true) :
    execute_tool_call environment call = runTool environment call.1 call.2.name
      (environment.rendered params) params := by
  rw [execute_tool_call, parse_tool_params, read]
  simp only [dumps, dumpable, if_true, Except.map, bind, Except.bind]

theorem dumpable_of_execute {call : Nat × ToolCall} {params : PyValue} {executed : Executed}
    (read : readArguments environment call.2.arguments = some params)
    (ran : execute_tool_call environment call = .ok executed) : params.dumpable = true := by
  rw [execute_tool_call, parse_tool_params, read] at ran
  obtain ⟨parsed, dumped, _⟩ := bind_eq_ok.mp ran
  obtain ⟨text, done, _⟩ := map_eq_ok.mp dumped
  unfold dumps at done
  split at done
  · assumption
  · cases done

theorem callAnswered_iff {call : Nat × ToolCall} :
    (∃ result, CallAnswered environment call result ∧ Writable result ∧
      (result.content = unparsed call.2.name ↔ ¬ Parses environment call.2.arguments)) ↔
      Answerable environment call := by
  unfold Answerable
  cases read : readArguments environment call.2.arguments with
  | none =>
    refine iff_of_true ?_ trivial
    refine ⟨_, ⟨_, execute_tool_call_unparsed read, answer_nothing rfl⟩, ?_, ?_⟩
    · exact fun file member => absurd member List.not_mem_nil
    · exact iff_of_true rfl (readArguments_eq_none.mp read)
  | some params =>
    have parses : Parses environment call.2.arguments := by
      by_contra unread
      rw [readArguments_eq_none.mpr unread] at read
      cases read
    have proper : ∀ content : String,
        (content = unparsed call.2.name ↔ ¬ Parses environment call.2.arguments) ↔
          content ≠ unparsed call.2.name := by
      intro content
      rw [iff_false_right (not_not_intro parses)]
    simp only [proper]
    by_cases something : params = .none
    · subst something
      refine iff_of_false ?_ (fun meets => meets.1 rfl)
      rintro ⟨result, ⟨executed, ran, answered⟩, _, other⟩
      obtain ⟨arguments, same⟩ := execute_tool_call_null read
      obtain rfl := Except.ok.inj (same.symm.trans ran)
      obtain rfl := Except.ok.inj ((answer_nothing rfl).symm.trans answered)
      exact other rfl
    by_cases dumpable : params.dumpable = true
    · have execution := execute_tool_call_parsed read something dumpable
      rw [← ne_eq] at something
      rw [and_iff_right something, and_iff_right dumpable]
      unfold runTool at execution
      cases found : environment.tools.get? call.2.name with
      | none =>
        rw [found] at execution
        exact callAnswered_of_execute execution
      | some tool =>
        rw [found] at execution
        cases params with
        | dict items =>
          refine (callAnswered_of_execute execution).trans ?_
          constructor
          · exact fun responds => ⟨items, rfl, responds⟩
          · rintro ⟨_, same, responds⟩
            obtain rfl := PyValue.dict.inj same
            exact responds
        | _ =>
          refine iff_of_false ?_ ?_
          · rintro ⟨_, ⟨executed, ran, _⟩, _⟩
            cases execution.symm.trans ran
          · rintro ⟨_, same, _⟩
            cases same
    · refine iff_of_false ?_ (fun meets => dumpable meets.2.1)
      rintro ⟨result, ⟨executed, ran, _⟩, _⟩
      exact dumpable (dumpable_of_execute read ran)

end Call

/-- Each call of the batch has one item that announces it and one that answers it, in the order of
the batch, and is told that its arguments could not be parsed exactly when they cannot. -/
structure Answered (environment : Environment) (batch : List ToolCall) (output : List OutputItem) :
    Prop where
  calls : (callIds output).filter (fun id => decide (id ∈ batch.map ToolCall.id)) =
    batch.map ToolCall.id
  answers : (answerIds output).filter (fun id => decide (id ∈ batch.map ToolCall.id)) =
    batch.map ToolCall.id
  unparsed_iff : ∀ call ∈ batch, ∀ id content parts files embeds,
    .function_call_output id call.id (.input_text content :: parts) files embeds ∈ output →
      (content = unparsed call.name ↔ ¬ Parses environment call.arguments)

section Batch

variable {environment : Environment}

theorem filter_old_new {ids old : List String} (unused : ∀ id ∈ ids, id ∉ old) :
    (old ++ ids).filter (fun id => decide (id ∈ ids)) = ids := by
  rw [List.filter_append]
  have none : old.filter (fun id => decide (id ∈ ids)) = [] := by
    rw [List.filter_eq_nil_iff]
    intro id member inside
    exact unused id (of_decide_eq_true inside) member
  rw [none, List.nil_append, List.filter_eq_self]
  exact fun id member => decide_eq_true member

theorem map_tool_call_id {batch : List ToolCall} {results : List Result}
    (answered : List.Forall₂ (CallAnswered environment) (indexed batch) results) :
    results.map Result.tool_call_id = batch.map ToolCall.id := by
  have ids : ∀ (calls : List (Nat × ToolCall)) (results : List Result),
      List.Forall₂ (CallAnswered environment) calls results →
        results.map Result.tool_call_id = (calls.map Prod.snd).map ToolCall.id := by
    intro calls results paired
    induction paired with
    | nil => rfl
    | cons one _ ih =>
      obtain ⟨executed, _, done⟩ := one
      rw [List.map_cons, List.map_cons, List.map_cons, ih, answer_tool_call_id done]
  rw [ids (indexed batch) results answered, indexed_snd]

theorem RoundLeaves.answer_of_mem {output left : List OutputItem} {batch : List ToolCall}
    {results : List Result} {completed items : List OutputItem}
    (leaves : RoundLeaves environment output batch left results completed items)
    (distinct : (batch.map ToolCall.id).Nodup)
    (unused : ∀ call ∈ batch, call.id ∉ answerIds output) {call : Nat × ToolCall}
    (member : call ∈ indexed batch) {id content : String} {parts : List Part}
    {files : List ToolFile} {embeds : List PyValue}
    (inside : .function_call_output id call.2.id (.input_text content :: parts) files embeds ∈ left) :
    ∃ result, CallAnswered environment call result ∧ result.content = content := by
  have there : call.2 ∈ batch := by
    rw [← indexed_snd batch]
    exact List.mem_map_of_mem member
  obtain ⟨last, rfl⟩ := leaves.same
  rcases List.mem_append.mp inside with before | message
  · rcases List.mem_append.mp before with old | new
    · have present := leaves.old _ old (fun _ _ _ _ _ => nofun)
      have used : call.2.id ∈ answerIds output := List.mem_filterMap.mpr ⟨_, present, rfl⟩
      exact absurd used (unused call.2 there)
    · obtain ⟨result, known, _, _, _, same⟩ := Sequence.exists_left leaves.written new
      obtain ⟨source, asked, answered⟩ := Sequence.exists_left leaves.answered known
      injection same with _ names outputs
      injection outputs with text
      injection text with content_same
      have ids : (((indexed batch).map Prod.snd).map ToolCall.id).Nodup := by
        rwa [indexed_snd]
      rw [List.map_map] at ids
      obtain ⟨executed, ran, done⟩ := answered
      have named : source.2.id = call.2.id := (answer_tool_call_id done).symm.trans names.symm
      obtain rfl := List.inj_on_of_nodup_map ids asked member named
      exact ⟨result, ⟨executed, ran, done⟩, content_same.symm⟩
  · cases List.mem_singleton.mp message

theorem answered_of_leaves {output left : List OutputItem} {batch : List ToolCall}
    {results : List Result} {completed items : List OutputItem}
    (leaves : RoundLeaves environment output batch left results completed items)
    (distinct : (batch.map ToolCall.id).Nodup)
    (unused : ∀ call ∈ batch, call.id ∉ callIds output ∧ call.id ∉ answerIds output)
    (told : ∀ call ∈ indexed batch, ∀ result, CallAnswered environment call result →
      (result.content = unparsed call.2.name ↔ ¬ Parses environment call.2.arguments)) :
    Answered environment batch left := by
  obtain ⟨last, same⟩ := leaves.same
  refine ⟨?_, ?_, ?_⟩
  · have ids : callIds left = callIds output ++ batch.map ToolCall.id := by
      rw [same, callIds_append, callIds_append, leaves.calls,
        callIds_announce batch (fun call member => (unused call member).1),
        callIds_written leaves.written, List.append_nil]
      exact List.append_nil _
    rw [ids]
    refine filter_old_new ?_
    intro id member
    obtain ⟨call, there, rfl⟩ := List.mem_map.mp member
    exact (unused call there).1
  · have ids : answerIds left = answerIds completed ++ batch.map ToolCall.id := by
      rw [same, answerIds_append, answerIds_append, answerIds_written leaves.written,
        map_tool_call_id leaves.answered]
      exact List.append_nil _
    rw [ids]
    refine filter_old_new ?_
    intro id member old
    obtain ⟨call, there, rfl⟩ := List.mem_map.mp member
    obtain ⟨item, inside, names⟩ := List.mem_filterMap.mp old
    refine (unused call there).2 (List.mem_filterMap.mpr ⟨item, leaves.old item inside ?_, names⟩)
    rintro _ _ _ _ _ rfl
    cases names
  · intro call there id content parts files embeds inside
    rw [← indexed_snd batch] at there
    obtain ⟨place, member, rfl⟩ := List.mem_map.mp there
    obtain ⟨result, answered, rfl⟩ := leaves.answer_of_mem distinct
      (fun other known => (unused other known).2) member inside
    exact told place member result answered

end Batch

def sampleLoads (text : String) : Loaded :=
  if text = "\x7b\"city\": \"Oslo\"\x7d" then .value (.dict [(.str "city", .str "Oslo")])
  else if text = "[1]" then .value (.list [.num "1"])
  else .decodeError

def sampleEnvironment : Environment where
  loads := sampleLoads
  literal_eval := fun _ => .error .valueError
  rendered := fun _ => "\x7b\"city\": \"Oslo\"\x7d"
  indented := fun _ => "\x7b\n  \"city\": \"Oslo\"\n\x7d"
  str := fun _ => .ok ""
  toDict := fun _ => .error .typeError
  get_file_url_from_base64 := fun _ => .ok none
  output_id := fun start _ => start
  tools := ⟨[("get_weather", ⟨["city"], "function", false⟩)], by decide⟩
  behave := fun index _ => if index = 0 then .returns (.str "Rain") else .returns .none

def weatherCall : ToolCall := ⟨"call_1", "get_weather", "\x7b\"city\": \"Oslo\"\x7d"⟩

def brokenCall : ToolCall := ⟨"call_2", "get_weather", "\x7b\"city\": \"Os"⟩

end OpenWebui.ToolCalls
