import Mathlib.Data.List.Basic
import OpenWebui.Utils.OutputMessages

/-! Tool calls and tool results are paired in the messages that are made of output items, and the
texts of the message items are all in the assistant contents. -/

namespace OpenWebui.OutputMessages

section Pairs

/-- Every result has a call, every call has a result, and no list of calls is empty. -/
structure Paired (messages : List Message) : Prop where
  results : ∀ id content, Message.tool id content ∈ messages →
    id.given = true ∧ ∃ message ∈ messages, ∃ call ∈ callsOf message, call.id = id
  calls : ∀ message ∈ messages, ∀ call ∈ callsOf message,
    ∃ content, Message.tool call.id content ∈ messages
  filled : ∀ content calls reasoning_content reasoning_details,
    Message.assistant content (some calls) reasoning_content reasoning_details ∈ messages → calls ≠ []

variable {messages : List Message}

theorem mem_completed {id : CallId} :
    id ∈ completed messages ↔ id.given = true ∧ ∃ content, Message.tool id content ∈ messages := by
  rw [completed, List.mem_filterMap]
  constructor
  · rintro ⟨message, member, found⟩
    cases message with
    | tool tool_call_id content =>
      dsimp only at found
      split at found
      · rename_i given
        obtain rfl := Option.some.inj found
        exact ⟨given, content, member⟩
      · cases found
    | _ => cases found
  · rintro ⟨given, content, member⟩
    exact ⟨_, member, if_pos given⟩

theorem mem_requested {id : CallId} :
    id ∈ requested messages ↔
      id.given = true ∧ ∃ message ∈ messages, ∃ call ∈ callsOf message, call.id = id := by
  simp only [requested, List.mem_flatMap, List.mem_filter, List.mem_map]
  constructor
  · rintro ⟨message, member, called, given⟩
    exact ⟨given, message, member, called⟩
  · rintro ⟨given, message, member, called⟩
    exact ⟨message, member, called, given⟩

theorem callsOf_reconcileOne {completed requested : List CallId} {message left : Message}
    (kept : reconcileOne completed requested message = some left) :
    ∀ call, call ∈ callsOf left ↔ call ∈ callsOf message ∧ call.id ∈ completed := by
  intro call
  cases message with
  | tool id content =>
    rw [reconcileOne] at kept
    split at kept
    · obtain rfl := Option.some.inj kept
      simp [callsOf]
    · cases kept
  | user image_urls =>
    obtain rfl := Option.some.inj kept
    simp [callsOf]
  | assistant content tool_calls reasoning_content reasoning_details =>
    rw [reconcileOne] at kept
    dsimp only at kept
    split at kept
    · rename_i empty
      obtain rfl := Option.some.inj kept
      simp [callsOf, List.isEmpty_iff.mp empty]
    · split at kept
      · obtain rfl := Option.some.inj kept
        simp [callsOf]
      · rename_i all_left
        split at kept
        · obtain rfl := Option.some.inj kept
          simp only [Bool.not_eq_true', Bool.not_eq_false, List.isEmpty_iff,
            List.filter_eq_nil_iff, decide_eq_true_eq] at all_left
          simp only [callsOf, Option.getD_none, List.not_mem_nil, false_iff]
          rintro ⟨member, found⟩
          exact all_left call member found
        · cases kept

theorem callsOf_of_dropped {completed requested : List CallId} {message : Message}
    (dropped : reconcileOne completed requested message = none) :
    ∀ call ∈ callsOf message, call.id ∉ completed := by
  intro call member found
  cases message with
  | tool id content => simp [callsOf] at member
  | user image_urls => cases dropped
  | assistant content tool_calls reasoning_content reasoning_details =>
    rw [reconcileOne] at dropped
    dsimp only at dropped
    split at dropped
    · cases dropped
    · split at dropped
      · cases dropped
      · rename_i all_left
        simp only [Bool.not_eq_true', Bool.not_eq_false, List.isEmpty_iff,
          List.filter_eq_nil_iff, decide_eq_true_eq] at all_left
        exact all_left call member found

theorem tool_of_reconcileOne {completed requested : List CallId} {message : Message} {id : CallId}
    {content : ToolContent} :
    reconcileOne completed requested message = some (.tool id content) ↔
      message = .tool id content ∧ id ∈ requested := by
  cases message with
  | tool other other_content =>
    rw [reconcileOne]
    split
    · rename_i known
      simp only [Option.some.injEq, Message.tool.injEq]
      constructor
      · rintro ⟨rfl, rfl⟩
        exact ⟨⟨rfl, rfl⟩, known⟩
      · rintro ⟨⟨rfl, rfl⟩, _⟩
        exact ⟨rfl, rfl⟩
    · rename_i unknown
      simp only [reduceCtorEq, Message.tool.injEq, false_iff]
      rintro ⟨⟨rfl, _⟩, known⟩
      exact unknown known
  | user image_urls => simp [reconcileOne]
  | assistant content tool_calls reasoning_content reasoning_details =>
    rw [reconcileOne]
    dsimp only
    split
    · simp
    · split
      · simp
      · split <;> simp

theorem filled_of_reconcileOne {completed requested : List CallId} {message : Message}
    {content : List Char} {calls : List ToolCall} {reasoning_content : Option (List Char)}
    {reasoning_details : Option (List Json)}
    (before : ∀ content reasoning_content reasoning_details,
      message ≠ .assistant content (some []) reasoning_content reasoning_details)
    (kept : reconcileOne completed requested message =
      some (.assistant content (some calls) reasoning_content reasoning_details)) : calls ≠ [] := by
  rintro rfl
  cases message with
  | tool id content =>
    rw [reconcileOne] at kept
    split at kept <;> cases kept
  | user image_urls => cases kept
  | assistant content tool_calls reasoning_content reasoning_details =>
    rw [reconcileOne] at kept
    dsimp only at kept
    split at kept
    · obtain rfl := (Message.assistant.inj (Option.some.inj kept)).2.1
      exact before _ _ _ rfl
    · split at kept
      · rename_i some_left
        have none_left := Option.some.inj (Message.assistant.inj (Option.some.inj kept)).2.1
        simp [none_left] at some_left
      · split at kept
        · cases (Message.assistant.inj (Option.some.inj kept)).2.1
        · cases kept

theorem reconcile_tool_pairs_paired
    (before : ∀ message ∈ messages, ∀ content reasoning_content reasoning_details,
      message ≠ .assistant content (some []) reasoning_content reasoning_details) :
    Paired (reconcile_tool_pairs messages) where
  results := by
    intro id content member
    obtain ⟨message, stored, kept⟩ := List.mem_filterMap.mp member
    obtain ⟨rfl, known⟩ := tool_of_reconcileOne.mp kept
    obtain ⟨given, caller, caller_stored, call, called, rfl⟩ := mem_requested.mp known
    have answered : call.id ∈ completed messages := mem_completed.mpr ⟨given, content, stored⟩
    refine ⟨given, ?_⟩
    cases left : reconcileOne (completed messages) (requested messages) caller with
    | none => exact absurd answered (callsOf_of_dropped left call called)
    | some kept_caller =>
      exact ⟨kept_caller, List.mem_filterMap.mpr ⟨caller, caller_stored, left⟩, call,
        (callsOf_reconcileOne left call).mpr ⟨called, answered⟩, rfl⟩
  calls := by
    intro left member call called
    obtain ⟨message, stored, kept⟩ := List.mem_filterMap.mp member
    obtain ⟨called_before, answered⟩ := (callsOf_reconcileOne kept call).mp called
    obtain ⟨given, content, result⟩ := mem_completed.mp answered
    have known : call.id ∈ requested messages :=
      mem_requested.mpr ⟨given, message, stored, call, called_before, rfl⟩
    exact ⟨content, List.mem_filterMap.mpr ⟨_, result, tool_of_reconcileOne.mpr ⟨rfl, known⟩⟩⟩
  filled := by
    intro content calls reasoning_content reasoning_details member
    obtain ⟨message, stored, kept⟩ := List.mem_filterMap.mp member
    exact filled_of_reconcileOne (before message stored) kept

end Pairs

section Texts

abbrev Piece := Nat × List Char

def spoken (piece : Piece) : Bool := !Text.blank piece.2

def contents (messages : List Message) : List (List Char) :=
  messages.filterMap (fun
    | .assistant content _ _ _ => some content
    | _ => none)

def joined (pieces : List Piece) : List Char := join (pieces.map Prod.snd)

def numbered (rendering : Rendering) (options : Options) (output : List Item) : List Piece :=
  output.zipIdx.flatMap (fun entry =>
    (piecesOf rendering options entry.1).map (fun text => (entry.2, text)))

theorem mem_join {texts : List (List Char)} {text : List Char} (member : text ∈ texts) :
    ∀ char ∈ text, char ∈ join texts := by
  intro char inside
  induction texts with
  | nil => cases member
  | cons first rest ih =>
    cases rest with
    | nil =>
      obtain rfl := List.mem_singleton.mp member
      simpa [join] using inside
    | cons second later =>
      have split : join (first :: second :: later) = first ++ '\n' :: join (second :: later) := by
        simp [join]
      rw [split]
      rcases List.mem_cons.mp member with rfl | after
      · exact List.mem_append_left _ inside
      · exact List.mem_append_right _ (List.mem_cons_of_mem _ (ih after))

theorem not_spoken_of_blank {pieces : List Piece} (blank : Text.blank (joined pieces) = true) :
    pieces.filter spoken = [] := by
  rw [List.filter_eq_nil_iff]
  intro piece member
  rw [Text.blank, List.all_eq_true] at blank
  have text_blank : Text.blank piece.2 = true := by
    rw [Text.blank, List.all_eq_true]
    intro char inside
    exact blank char (mem_join (List.mem_map_of_mem member) char inside)
  simp [spoken, text_blank]

section Collect

variable {rendering : Rendering} {options : Options}

theorem contents_append (first second : List Message) :
    contents (first ++ second) = contents first ++ contents second := List.filterMap_append

theorem numbered_append_singleton (output : List Item) (item : Item) :
    numbered rendering options (output ++ [item]) = numbered rendering options output ++
      (piecesOf rendering options item).map (fun text => (output.length, text)) := by
  simp [numbered, List.zipIdx_append]

/-- The contents are made of consecutive pieces, and the last of them wait. -/
def Holds (pieces : List Piece) (pending : Pending) : Prop :=
  ∃ (segments : List (List Piece)) (waiting : List Piece),
    contents pending.messages = segments.map joined ∧ pending.content = waiting.map Prod.snd ∧
      segments.flatten ++ waiting = pieces

variable {pieces : List Piece} {pending : Pending}

theorem Holds.flush_pending (holds : Holds pieces pending) :
    Holds pieces pending.flush_pending ∧ pending.flush_pending.content = [] := by
  obtain ⟨segments, waiting, made, left, whole⟩ := holds
  rw [Pending.flush_pending]
  split
  · rename_i idle
    simp only [Bool.and_eq_true, List.isEmpty_iff] at idle
    exact ⟨⟨segments, waiting, made, left, whole⟩, idle.1.1.1⟩
  · refine ⟨⟨segments ++ [waiting], [], ?_, rfl, ?_⟩, rfl⟩
    · rw [contents_append, made, List.map_append, List.map_singleton, joined, ← left]
      rfl
    · rw [List.flatten_append, List.flatten_singleton, List.append_nil, whole]

theorem Holds.flush_tool_images (holds : Holds pieces pending) :
    Holds pieces pending.flush_tool_images := by
  rw [Pending.flush_tool_images]
  split
  · exact holds
  · obtain ⟨segments, waiting, made, left, whole⟩ := holds
    refine ⟨segments, waiting, ?_, left, whole⟩
    rw [contents_append, made]
    exact List.append_nil _

theorem Holds.add (holds : Holds pieces pending) (more : List Piece) {next : Pending}
    (messages : next.messages = pending.messages)
    (content : next.content = pending.content ++ more.map Prod.snd) : Holds (pieces ++ more) next := by
  obtain ⟨segments, waiting, made, left, whole⟩ := holds
  refine ⟨segments, waiting ++ more, by rw [messages, made], ?_, ?_⟩
  · rw [content, left, List.map_append]
  · rw [← List.append_assoc, whole]

theorem contents_toolMessage (id : CallId) (output : List OutputPart) :
    contents [toolMessage rendering options id output] = [] := by
  rw [toolMessage]
  split <;> rfl

theorem Holds.takeItem (holds : Holds pieces pending) (function_call_ids : List CallId)
    (item : Item) (position : Nat) :
    Holds (pieces ++ (piecesOf rendering options item).map (fun text => (position, text)))
      (takeItem rendering options function_call_ids pending item) := by
  have texts : ((piecesOf rendering options item).map (fun text => (position, text))).map Prod.snd =
      piecesOf rendering options item := by simp [Function.comp_def]
  cases item with
  | function_call_output call_id output =>
    obtain ⟨⟨segments, waiting, made, left, whole⟩, _⟩ := holds.flush_pending
    refine ⟨segments, waiting, ?_, left, by simpa [piecesOf] using whole⟩
    rw [OutputMessages.takeItem]
    dsimp only
    rw [contents_append, contents_toolMessage, made, List.append_nil]
  | message content => exact holds.flush_tool_images.add _ rfl (by rw [texts]; rfl)
  | code_interpreter code output => exact holds.flush_tool_images.add _ rfl (by rw [texts]; rfl)
  | function_call call_id name arguments =>
    exact holds.flush_tool_images.add _ rfl (List.append_nil _).symm
  | other type => exact holds.flush_tool_images.add _ rfl (List.append_nil _).symm
  | reasoning reasoning_details summary content start_tag end_tag =>
    rw [OutputMessages.takeItem]
    dsimp only
    generalize (if options.raw then reasoning_details else Json.null) = details
    split
    · rename_i skipped
      refine holds.flush_tool_images.add _ rfl ?_
      rw [texts]
      have no_format : (options.reasoning_format.getD []).isEmpty = true := by
        rw [Bool.and_eq_true] at skipped
        exact skipped.1
      have unformatted : options.reasoning_format ≠ some "think_tags".toList := by
        intro same
        rw [same] at no_format
        exact absurd no_format (by decide)
      have silent : piecesOf rendering options
          (.reasoning reasoning_details summary content start_tag end_tag) = [] :=
        if_neg (fun both => unformatted both.1)
      rw [silent, List.append_nil]
    · exact holds.flush_tool_images.add _ rfl (by rw [texts])

theorem foldl_takeItem (function_call_ids : List CallId) (output : List Item) :
    Holds (numbered rendering options output)
      (output.foldl (takeItem rendering options function_call_ids) {}) := by
  induction output using List.reverseRecOn with
  | nil => exact ⟨[], [], rfl, rfl, rfl⟩
  | append_singleton output item ih =>
    rw [List.foldl_append, List.foldl_cons, List.foldl_nil, numbered_append_singleton]
    exact ih.takeItem function_call_ids item output.length

theorem contents_collected (output : List Item) :
    ∃ segments : List (List Piece),
      contents (collected rendering options output) = segments.map joined ∧
        segments.flatten = numbered rendering options output := by
  have all := (@foldl_takeItem rendering options (functionCallIds output) output).flush_tool_images
  obtain ⟨⟨segments, waiting, made, left, whole⟩, empty⟩ := all.flush_pending
  rw [empty] at left
  obtain rfl := List.map_eq_nil_iff.mp left.symm
  exact ⟨segments, made, by rw [← whole, List.append_nil]⟩

/-- No list of calls is empty. -/
def Filled (messages : List Message) : Prop :=
  ∀ message ∈ messages, ∀ content reasoning_content reasoning_details,
    message ≠ .assistant content (some []) reasoning_content reasoning_details

theorem Filled.concat {messages : List Message} (filled : Filled messages) {last : Message}
    (last_filled : ∀ content reasoning_content reasoning_details,
      last ≠ .assistant content (some []) reasoning_content reasoning_details) :
    Filled (messages ++ [last]) := by
  intro message member
  rcases List.mem_append.mp member with earlier | here
  · exact filled message earlier
  · exact List.mem_singleton.mp here ▸ last_filled

theorem Filled.flush_pending (filled : Filled pending.messages) :
    Filled pending.flush_pending.messages := by
  rw [Pending.flush_pending]
  split
  · exact filled
  · apply filled.concat
    intro content reasoning_content reasoning_details same
    have calls := (Message.assistant.inj same).2.1
    rw [OutputMessages.filled] at calls
    split at calls
    · cases calls
    · rename_i some_calls
      exact some_calls (by rw [Option.some.inj calls]; rfl)

theorem Filled.flush_tool_images (filled : Filled pending.messages) :
    Filled pending.flush_tool_images.messages := by
  rw [Pending.flush_tool_images]
  split
  · exact filled
  · apply filled.concat
    intro content reasoning_content reasoning_details same
    cases same

theorem Filled.takeItem (filled : Filled pending.messages) (function_call_ids : List CallId)
    (item : Item) :
    Filled (takeItem rendering options function_call_ids pending item).messages := by
  cases item with
  | function_call_output call_id output =>
    apply filled.flush_pending.concat
    intro content reasoning_content reasoning_details same
    rw [toolMessage] at same
    split at same <;> cases same
  | reasoning reasoning_details summary content start_tag end_tag =>
    rw [OutputMessages.takeItem]
    dsimp only
    generalize (if options.raw then reasoning_details else Json.null) = details
    split
    · exact filled.flush_tool_images
    · exact filled.flush_tool_images
  | _ => exact filled.flush_tool_images

theorem filled_collected (output : List Item) : Filled (collected rendering options output) := by
  have all (items : List Item) (function_call_ids : List CallId) :
      Filled (items.foldl (takeItem rendering options function_call_ids) {}).messages := by
    induction items using List.reverseRecOn with
    | nil => exact fun _ member => absurd member List.not_mem_nil
    | append_singleton items item ih =>
      rw [List.foldl_append, List.foldl_cons, List.foldl_nil]
      exact ih.takeItem function_call_ids item
  exact (all output (functionCallIds output)).flush_tool_images.flush_pending

end Collect

section Reconciled

theorem content_of_reconcileOne {completed requested : List CallId} {message left : Message}
    (kept : reconcileOne completed requested message = some left) :
    contents [left] = contents [message] := by
  cases message with
  | tool id content =>
    rw [reconcileOne] at kept
    split at kept
    · obtain rfl := Option.some.inj kept
      rfl
    · cases kept
  | user image_urls =>
    obtain rfl := Option.some.inj kept
    rfl
  | assistant content tool_calls reasoning_content reasoning_details =>
    rw [reconcileOne] at kept
    dsimp only at kept
    split at kept
    · obtain rfl := Option.some.inj kept
      rfl
    · split at kept
      · obtain rfl := Option.some.inj kept
        rfl
      · split at kept
        · obtain rfl := Option.some.inj kept
          rfl
        · cases kept

theorem blank_of_dropped {completed requested : List CallId} {message : Message}
    (dropped : reconcileOne completed requested message = none) :
    ∀ content ∈ contents [message], Text.blank content = true := by
  intro content member
  cases message with
  | tool id tool_content => cases member
  | user image_urls => cases dropped
  | assistant own tool_calls reasoning_content reasoning_details =>
    obtain rfl : content = own := List.mem_singleton.mp member
    rw [reconcileOne] at dropped
    dsimp only at dropped
    split at dropped
    · cases dropped
    · split at dropped
      · cases dropped
      · split at dropped
        · cases dropped
        · rename_i silent
          simp only [Bool.or_eq_true, Bool.not_eq_true', not_or] at silent
          simpa using silent.1

theorem contents_filterMap {completed requested : List CallId} {messages : List Message}
    {segments : List (List Piece)} (made : contents messages = segments.map joined) :
    ∃ left : List (List Piece),
      contents (messages.filterMap (reconcileOne completed requested)) = left.map joined ∧
        left.flatten.filter spoken = segments.flatten.filter spoken := by
  induction messages generalizing segments with
  | nil => exact ⟨segments, made, rfl⟩
  | cons message rest ih =>
    have split_contents : contents (message :: rest) = contents [message] ++ contents rest :=
      contents_append [message] rest
    rw [split_contents] at made
    obtain ⟨first, later, rfl, made_first, made_later⟩ := List.append_eq_map_iff.mp made
    obtain ⟨left, kept_contents, kept_spoken⟩ := ih made_later.symm
    rw [List.filterMap_cons]
    split
    · rename_i dropped
      refine ⟨left, kept_contents, ?_⟩
      rw [kept_spoken, List.flatten_append, List.filter_append]
      have silent : first.flatten.filter spoken = [] := by
        rw [List.filter_flatten, List.flatten_eq_nil_iff]
        intro pieces member
        obtain ⟨segment, inside, rfl⟩ := List.mem_map.mp member
        refine not_spoken_of_blank (blank_of_dropped dropped _ ?_)
        rw [← made_first]
        exact List.mem_map_of_mem inside
      rw [silent, List.nil_append]
    · rename_i kept kept_is
      refine ⟨first ++ left, ?_, ?_⟩
      · have split_kept : contents (kept :: rest.filterMap (reconcileOne completed requested)) =
            contents [kept] ++ contents (rest.filterMap (reconcileOne completed requested)) :=
          contents_append [kept] _
        rw [split_kept, content_of_reconcileOne kept_is, ← made_first, kept_contents,
          List.map_append]
      · rw [List.flatten_append, List.flatten_append, List.filter_append, List.filter_append,
          kept_spoken]

end Reconciled

section Positions

variable {rendering : Rendering} {options : Options}

theorem mem_numbered {output : List Item} {piece : Piece} :
    piece ∈ numbered rendering options output ↔
      ∃ item, output[piece.1]? = some item ∧ piece.2 ∈ piecesOf rendering options item := by
  obtain ⟨position, text⟩ := piece
  rw [numbered, List.mem_flatMap]
  constructor
  · rintro ⟨⟨item, index⟩, member, inside⟩
    obtain ⟨own, found, same⟩ := List.mem_map.mp inside
    obtain ⟨rfl, rfl⟩ := Prod.mk.inj same
    exact ⟨item, List.mem_zipIdx_iff_getElem?.mp member, found⟩
  · rintro ⟨item, stored, found⟩
    exact ⟨(item, position), List.mem_zipIdx_iff_getElem?.mpr stored,
      List.mem_map.mpr ⟨text, found, rfl⟩⟩

theorem numbered_ordered (output : List Item) :
    ((numbered rendering options output).map Prod.fst).Pairwise (· ≤ ·) := by
  induction output using List.reverseRecOn with
  | nil => exact List.Pairwise.nil
  | append_singleton output item ih =>
    rw [numbered_append_singleton, List.map_append, List.pairwise_append]
    refine ⟨ih, ?_, ?_⟩
    · rw [List.map_map]
      exact List.pairwise_map.mpr (List.Pairwise.imp (fun _ => Nat.le_refl _)
        (List.pairwise_of_forall (fun _ _ => trivial)))
    · intro before member last last_member
      obtain ⟨piece, inside, rfl⟩ := List.mem_map.mp member
      obtain ⟨own, own_inside, rfl⟩ := List.mem_map.mp last_member
      obtain ⟨text, _, rfl⟩ := List.mem_map.mp own_inside
      obtain ⟨found, stored, _⟩ := mem_numbered.mp inside
      exact Nat.le_of_lt (List.getElem?_eq_some_iff.mp stored).1

theorem numbered_message {output : List Item} {position : Nat} {content : List Part}
    (stored : output[position]? = some (.message content)) (filled : textOf content ≠ []) :
    (numbered rendering options output).filter (fun piece => decide (piece.1 = position)) =
      [(position, textOf content)] := by
  induction output using List.reverseRecOn with
  | nil => cases stored
  | append_singleton output item ih =>
    rw [numbered_append_singleton, List.filter_append]
    rcases Nat.lt_trichotomy position output.length with before | rfl | after
    · rw [List.getElem?_append_left before] at stored
      have none_last : ((piecesOf rendering options item).map
          (fun text => (output.length, text))).filter
            (fun piece => decide (piece.1 = position)) = [] := by
        rw [List.filter_eq_nil_iff]
        intro piece member
        obtain ⟨text, _, rfl⟩ := List.mem_map.mp member
        simpa using (Nat.ne_of_lt before).symm
      rw [ih stored, none_last, List.append_nil]
    · rw [List.getElem?_concat_length] at stored
      obtain rfl := Option.some.inj stored
      have none_before : (numbered rendering options output).filter
          (fun piece => decide (piece.1 = output.length)) = [] := by
        rw [List.filter_eq_nil_iff]
        intro piece member
        obtain ⟨found, at_piece, _⟩ := mem_numbered.mp member
        simpa using Nat.ne_of_lt (List.getElem?_eq_some_iff.mp at_piece).1
      have one : piecesOf rendering options (.message content) = [textOf content] := by
        have some_text : (textOf content).isEmpty = false := by simpa using filled
        simp [piecesOf, OutputMessages.filled, some_text]
      rw [none_before, one]
      simp
    · have bound := (List.getElem?_eq_some_iff.mp stored).1
      rw [List.length_append, List.length_singleton] at bound
      omega

end Positions

/-- The assistant contents are made of pieces, of which those of a message item are its text, once,
and which stand in the order of the items. -/
def TextsOnce (output : List Item) (messages : List Message) : Prop :=
  ∃ segments : List (List Piece), contents messages = segments.map joined ∧
    ((segments.flatten.filter spoken).map Prod.fst).Pairwise (· ≤ ·) ∧
    ∀ (position : Nat) (content : List Part), output[position]? = some (.message content) →
      Text.blank (textOf content) = false →
        (segments.flatten.filter spoken).filter (fun piece => decide (piece.1 = position)) =
          [(position, textOf content)]

theorem textsOnce_convert (rendering : Rendering) (options : Options) (output : List Item) :
    TextsOnce output (convert_output_to_messages rendering options output) := by
  obtain ⟨segments, made, whole⟩ := @contents_collected rendering options output
  obtain ⟨left, kept, spoken_same⟩ := @contents_filterMap
    (completed (collected rendering options output)) (requested (collected rendering options output))
    _ _ made
  refine ⟨left, kept, ?_, ?_⟩
  · rw [spoken_same, whole]
    exact (numbered_ordered output).sublist (List.filter_sublist.map _)
  · intro position content stored nonblank
    have filled : textOf content ≠ [] := by
      intro empty
      rw [empty] at nonblank
      cases nonblank
    rw [spoken_same, whole, List.filter_comm, numbered_message stored filled]
    simp [spoken, nonblank]

end Texts

end OpenWebui.OutputMessages
