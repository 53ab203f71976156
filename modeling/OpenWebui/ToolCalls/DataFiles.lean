import Mathlib.Data.List.Chain
import OpenWebui.ToolCalls.Round

/-! When the loop that takes data out of the list it runs over takes all of it. -/

namespace OpenWebui.ToolCalls

def dataText? : PyValue → Option String
  | .str text => if startsWith text "data:" then some text else none
  | _ => none

def isData (item : PyValue) : Bool := (dataText? item).isSome

def dataTexts (items : List PyValue) : List String := items.filterMap dataText?

def others (items : List PyValue) : List PyValue := items.filter (fun item => !isData item)

/-- No two items that follow one another are both data. -/
def Spread (items : List PyValue) : Prop :=
  items.IsChain (fun first second => ¬ (isData first = true ∧ isData second = true))

def visited : Bool → List PyValue → List String
  | _, [] => []
  | true, _ :: rest => visited false rest
  | false, item :: rest =>
    match dataText? item with
    | some text => text :: visited true rest
    | none => visited false rest

theorem dataText?_eq_some {item : PyValue} {text : String} (found : dataText? item = some text) :
    item = .str text ∧ startsWith text "data:" = true := by
  cases item with
  | str given =>
    rw [dataText?] at found
    split at found
    · rename_i starts
      obtain rfl := Option.some.inj found
      exact ⟨rfl, starts⟩
    · cases found
  | _ => cases found

section Removal

variable {text : String} {item : PyValue} {front back : List PyValue}

theorem isStr_iff : item.isStr text = true ↔ item = .str text := by
  cases item <;> simp [PyValue.isStr]

theorem remove_append (member : PyValue.str text ∈ front) :
    remove text (front ++ back) = remove text front ++ back ∧
      (remove text front).length + 1 = front.length := by
  induction front with
  | nil => cases member
  | cons first rest ih =>
    rw [List.cons_append, remove, remove]
    by_cases same : first.isStr text = true
    · rw [if_pos same, if_pos same]
      exact ⟨rfl, rfl⟩
    · rw [if_neg same, if_neg same]
      have later : PyValue.str text ∈ rest := by
        rcases List.mem_cons.mp member with here | there
        · exact absurd (isStr_iff.mpr here.symm) same
        · exact there
      obtain ⟨apart, shorter⟩ := ih later
      rw [apart]
      exact ⟨rfl, by rw [List.length_cons, List.length_cons, shorter]⟩

theorem remove_of_fresh (fresh : PyValue.str text ∉ front) :
    remove text (front ++ [.str text]) = front := by
  induction front with
  | nil => simp [remove, PyValue.isStr]
  | cons first rest ih =>
    obtain ⟨different, absent⟩ := not_or.mp (fun either => fresh (List.mem_cons.mpr either))
    have other : ¬ first.isStr text = true := fun same => different (isStr_iff.mp same).symm
    rw [List.cons_append, remove, if_neg other, ih absent]

end Removal

theorem takeData_at {fuel index : Nat} {items : List PyValue} {files : List ToolFile}
    {item : PyValue} (here : items[index]? = some item) :
    takeData (fuel + 1) index items files =
      match dataText? item with
      | some text => takeData fuel (index + 1) (remove text items) (files ++ [.data text])
      | none => takeData fuel (index + 1) items files := by
  rw [takeData, here]
  cases item with
  | str text =>
    dsimp only [dataText?]
    split <;> rfl
  | _ => rfl

theorem takeData_end {index : Nat} {items : List PyValue} (files : List ToolFile)
    (over_ : items.length ≤ index) (fuel : Nat) : takeData fuel index items files = (items, files) := by
  cases fuel with
  | zero => rfl
  | succ fuel => rw [takeData, List.getElem?_eq_none over_]

theorem takeData_files (fuel : Nat) (passed rest : List PyValue) (files : List ToolFile)
    (enough : rest.length ≤ fuel) :
    (takeData fuel passed.length (passed ++ rest) files).2 =
      files ++ (visited false rest).map .data := by
  induction fuel using Nat.strongRecOn generalizing passed rest files with
  | _ fuel ih =>
    cases rest with
    | nil => rw [List.append_nil, takeData_end files (Nat.le_refl _), visited]; simp
    | cons item rest =>
      obtain ⟨fuel, rfl⟩ := Nat.exists_eq_succ_of_ne_zero
        (Nat.ne_of_gt (Nat.lt_of_lt_of_le (Nat.succ_pos _) enough))
      have here : (passed ++ item :: rest)[passed.length]? = some item := by simp
      rw [List.length_cons] at enough
      rw [takeData_at here, visited]
      cases found : dataText? item with
      | none =>
        have step := ih fuel (Nat.lt_succ_self _) (passed ++ [item]) rest files
          (Nat.le_of_succ_le_succ enough)
        rwa [List.length_append, List.append_assoc] at step
      | some text =>
        obtain ⟨rfl, _⟩ := dataText?_eq_some found
        obtain ⟨apart, shorter⟩ := @remove_append text (passed ++ [.str text]) rest (by simp)
        have length : (remove text (passed ++ [.str text])).length = passed.length := by
          simpa using shorter
        rw [List.append_assoc, List.singleton_append] at apart
        dsimp only
        rw [apart]
        cases rest with
        | nil =>
          rw [takeData_end _ (by simp [length]), visited]
          simp
        | cons next rest =>
          have step := ih fuel (Nat.lt_succ_self _) (remove text (passed ++ [.str text]) ++ [next])
            rest (files ++ [.data text]) (by rw [List.length_cons] at enough; omega)
          rw [List.length_append, length, List.append_assoc] at step
          rw [visited]
          simpa using step

theorem takeData_left (fuel : Nat) (passed rest : List PyValue) (files : List ToolFile)
    (enough : rest.length ≤ fuel) (clean : ∀ item ∈ passed, isData item = false)
    (spread : Spread rest) :
    (takeData fuel passed.length (passed ++ rest) files).1 = passed ++ others rest := by
  induction fuel using Nat.strongRecOn generalizing passed rest files with
  | _ fuel ih =>
    cases rest with
    | nil => rw [List.append_nil, takeData_end files (Nat.le_refl _), others]; simp
    | cons item rest =>
      obtain ⟨fuel, rfl⟩ := Nat.exists_eq_succ_of_ne_zero
        (Nat.ne_of_gt (Nat.lt_of_lt_of_le (Nat.succ_pos _) enough))
      have here : (passed ++ item :: rest)[passed.length]? = some item := by simp
      rw [List.length_cons] at enough
      rw [takeData_at here]
      cases found : dataText? item with
      | none =>
        have plain : isData item = false := by rw [isData, found]; rfl
        have step := ih fuel (Nat.lt_succ_self _) (passed ++ [item]) rest files
          (Nat.le_of_succ_le_succ enough) (by simpa [or_imp, forall_and] using ⟨clean, plain⟩)
          spread.tail
        rw [List.length_append, List.append_assoc] at step
        simpa [others, plain] using step
      | some text =>
        obtain ⟨rfl, _⟩ := dataText?_eq_some found
        have data : isData (.str text) = true := by rw [isData, found]; rfl
        have fresh : PyValue.str text ∉ passed := by
          intro member
          rw [clean _ member] at data
          cases data
        obtain ⟨apart, _⟩ := @remove_append text (passed ++ [.str text]) rest (by simp)
        rw [List.append_assoc, List.singleton_append, remove_of_fresh fresh] at apart
        dsimp only
        rw [apart]
        cases rest with
        | nil =>
          rw [takeData_end _ (by simp)]
          simp [others, data]
        | cons next rest =>
          -- The loop passes by the item that has moved to where it stands.
          obtain ⟨apart_next, later⟩ := List.isChain_cons_cons.mp spread
          have plain : isData next = false := by simpa [data] using apart_next
          have step := ih fuel (Nat.lt_succ_self _) (passed ++ [next]) rest
            (files ++ [.data text]) (by rw [List.length_cons] at enough; omega)
            (by simpa [or_imp, forall_and] using ⟨clean, plain⟩) later.tail
          rw [List.length_append, List.append_assoc] at step
          simpa [others, data, plain] using step

theorem visited_length (skip : Bool) (items : List PyValue) :
    (visited skip items).length ≤ (dataTexts items).length := by
  induction items generalizing skip with
  | nil => cases skip <;> exact Nat.le_refl _
  | cons item rest ih =>
    have more : (dataTexts rest).length ≤ (dataTexts (item :: rest)).length := by
      rw [dataTexts, dataTexts, List.filterMap_cons]
      split
      · exact Nat.le_refl _
      · exact Nat.le_succ _
    cases skip with
    | true => exact (ih false).trans more
    | false =>
      rw [visited]
      cases found : dataText? item with
      | none => exact (ih false).trans more
      | some text =>
        have counted : dataTexts (item :: rest) = text :: dataTexts rest := by
          rw [dataTexts, List.filterMap_cons, found, dataTexts]
        rw [counted]
        exact Nat.succ_le_succ (ih true)

theorem visited_eq_iff (items : List PyValue) :
    visited false items = dataTexts items ↔ Spread items := by
  induction items with
  | nil => exact ⟨fun _ => List.isChain_nil, fun _ => rfl⟩
  | cons item rest ih =>
    cases found : dataText? item with
    | none =>
      have plain : isData item = false := by rw [isData, found]; rfl
      have same : Spread (item :: rest) ↔ Spread rest := by
        cases rest with
        | nil => simp [Spread]
        | cons next rest => simp [Spread, List.isChain_cons_cons, plain]
      rw [visited, found, dataTexts, List.filterMap_cons, found, same, ← ih, dataTexts]
    | some text =>
      have data : isData item = true := by rw [isData, found]; rfl
      cases rest with
      | nil => simp [visited, dataTexts, found, Spread]
      | cons next rest =>
        have apart : Spread (item :: next :: rest) ↔
            isData next = false ∧ Spread (next :: rest) := by
          simp [Spread, List.isChain_cons_cons, data]
        rw [apart, ← ih, visited, found]
        cases after : dataText? next with
        | none =>
          have plain : isData next = false := by rw [isData, after]; rfl
          simp [visited, dataTexts, found, after, plain]
        | some other =>
          have data_next : isData next = true := by rw [isData, after]; rfl
          have short := visited_length false rest
          refine iff_of_false (fun same => ?_) (by simp [data_next])
          have lengths := congrArg List.length same
          simp only [visited, dataTexts, List.filterMap_cons, found, after, List.length_cons] at lengths
          rw [dataTexts] at short
          omega

/-- The files are the data and the text is the JSON of the others, each in order. -/
structure Partitioned (runtime : Runtime) (items : List PyValue) (processed : Processed) : Prop where
  files : processed.files = (dataTexts items).map .data
  text : (dumpsIndented runtime (.dict [(.str "results", .list (others items))])).toOption =
    processed.text

theorem process_list {runtime : Runtime} {tool_function_name : String} {tool_result : PyValue}
    {tool_type : Option String} {direct_tool : Bool} {items embeds : List PyValue}
    (list : unpack runtime tool_function_name tool_type direct_tool tool_result =
      .ok ⟨.list items, embeds⟩)
    (plain : tool_type ≠ some "mcp") :
    process_tool_result runtime tool_function_name tool_result tool_type direct_tool =
      (dumpsIndented runtime (.dict [(.str "results",
        .list (takeData items.length 0 items []).1)])).map (fun text =>
          ⟨some text, (takeData items.length 0 items []).2, embeds⟩) := by
  rw [process_tool_result, list]
  dsimp only [bind, Except.bind, readList]
  rw [if_neg plain]
  dsimp only [resultText]
  cases dumpsIndented runtime (.dict [(.str "results",
    .list (takeData items.length 0 items []).1)]) <;> rfl

theorem remove_sublist (text : String) (items : List PyValue) :
    (remove text items).Sublist items := by
  induction items with
  | nil => exact List.Sublist.refl _
  | cons item rest ih =>
    rw [remove]
    split
    · exact List.sublist_cons_self item rest
    · exact ih.cons_cons item

theorem takeData_sublist (fuel index : Nat) (items : List PyValue) (files : List ToolFile) :
    (takeData fuel index items files).1.Sublist items := by
  induction fuel generalizing index items files with
  | zero => exact List.Sublist.refl _
  | succ fuel ih =>
    cases here : items[index]? with
    | none => rw [takeData_end files (List.getElem?_eq_none_iff.mp here)]
    | some item =>
      rw [takeData_at here]
      cases dataText? item with
      | none => exact ih (index + 1) items files
      | some text => exact (ih (index + 1) _ _).trans (remove_sublist text items)

theorem allDumpable_of_all {items : List PyValue} (each : ∀ item ∈ items, item.dumpable = true) :
    PyValue.allDumpable items = true := by
  induction items with
  | nil => rfl
  | cons item rest ih =>
    rw [PyValue.allDumpable, each item (List.mem_cons_self ..),
      ih (fun other member => each other (List.mem_cons_of_mem item member))]
    rfl

theorem dumpsIndented_results (runtime : Runtime) {some_items items : List PyValue}
    (each : ∀ item ∈ items, item.dumpable = true) (part : some_items.Sublist items) :
    dumpsIndented runtime (.dict [(.str "results", .list some_items)]) =
      .ok (runtime.indented (.dict [(.str "results", .list some_items)])) := by
  have dumpable := allDumpable_of_all (fun item member => each item (part.subset member))
  rw [dumpsIndented, if_pos]
  simp [PyValue.dumpable, PyValue.allItems, PyValue.keyable, dumpable]

/-- A list result is split into its data and its other items exactly where no two items of data
follow one another. -/
theorem process_tool_result_partitioned_iff (runtime : Runtime) (tool_function_name : String)
    (tool_result : PyValue) (tool_type : Option String) (direct_tool : Bool)
    (items embeds : List PyValue)
    (list : unpack runtime tool_function_name tool_type direct_tool tool_result =
      .ok ⟨.list items, embeds⟩)
    (plain : tool_type ≠ some "mcp") (dumpable : ∀ item ∈ items, item.dumpable = true) :
    ∃ processed, process_tool_result runtime tool_function_name tool_result tool_type direct_tool =
      .ok processed ∧ (Partitioned runtime items processed ↔ Spread items) := by
  have left := dumpsIndented_results runtime dumpable (takeData_sublist items.length 0 items [])
  have files := takeData_files items.length [] items [] (Nat.le_refl _)
  rw [List.length_nil, List.nil_append, List.nil_append] at files
  rw [process_list list plain, left]
  refine ⟨_, rfl, ?_⟩
  constructor
  · intro partitioned
    have all := partitioned.files
    rw [files] at all
    exact (visited_eq_iff items).mp
      (List.map_injective_iff.mpr (fun _ _ same => ToolFile.data.inj same) all)
  · intro spread
    have kept := takeData_left items.length [] items [] (Nat.le_refl _) nofun spread
    rw [List.length_nil, List.nil_append, List.nil_append] at kept
    refine ⟨?_, ?_⟩
    · rw [files, (visited_eq_iff items).mpr spread]
    · have part : (others items).Sublist items := List.filter_sublist
      rw [dumpsIndented_results runtime dumpable part, kept]
      rfl

section Samples

def plainRuntime : Runtime where
  loads _ := .decodeError
  literal_eval _ := .error .valueError
  rendered _ := ""
  indented _ := ""
  str _ := .ok ""
  toDict _ := .error .typeError
  get_file_url_from_base64 _ := .ok none
  output_id kind _ := kind

/-- A text between two items of data, as an external tool returns it with its headers. -/
theorem spread_items_partitioned :
    ∃ processed, process_tool_result plainRuntime "screenshots"
        (.tuple [.list [.str "data:a", .str "first", .str "data:b"], .dict []]) (some "external")
        false = .ok processed ∧
      (Partitioned plainRuntime [.str "data:a", .str "first", .str "data:b"] processed ↔
        Spread [.str "data:a", .str "first", .str "data:b"]) :=
  process_tool_result_partitioned_iff plainRuntime "screenshots" _ (some "external") false _ []
    (by rfl) (by decide) (by simp [PyValue.dumpable])

/-- Of two items of data that follow one another the second stays in the text. -/
theorem adjacent_data_left :
    ¬ ∀ (runtime : Runtime) (tool_function_name : String) (tool_result : PyValue)
      (tool_type : Option String) (direct_tool : Bool) (items embeds : List PyValue),
      unpack runtime tool_function_name tool_type direct_tool tool_result =
          .ok ⟨.list items, embeds⟩ →
        tool_type ≠ some "mcp" → (∀ item ∈ items, item.dumpable = true) →
        ∃ processed, process_tool_result runtime tool_function_name tool_result tool_type
          direct_tool = .ok processed ∧ Partitioned runtime items processed := by
  intro always
  obtain ⟨processed, done, partitioned⟩ := always plainRuntime "screenshots"
    (.tuple [.list [.str "data:a", .str "data:b"], .dict []]) (some "external") false
    [.str "data:a", .str "data:b"] [] (by rfl) (by decide) (by simp [PyValue.dumpable])
  have files : processed.files = [.data "data:a"] := by
    have same : process_tool_result plainRuntime "screenshots"
        (.tuple [.list [.str "data:a", .str "data:b"], .dict []]) (some "external") false =
        .ok ⟨some "", [.data "data:a"], []⟩ := by rfl
    rw [same] at done
    rw [← Except.ok.inj done]
  have expected := partitioned.files
  rw [files] at expected
  revert expected
  decide

end Samples

end OpenWebui.ToolCalls
