import Mathlib.Algebra.GroupWithZero.Nat
import OpenWebui.Base.Occurs
import OpenWebui.Base.Sequence
import OpenWebui.Utils.MessageText

/-! `merge_system_messages`: the system messages of a request become one, at its beginning. A content
that is a list is read up to its first text part. -/

namespace OpenWebui.Utils

def isSystem (message : Fields) : Bool := decide (getField message "role" = .str "system")

/-- An item of `'\n'.join`. -/
def joinable : Json → Except PyError String
  | .str text => .ok text
  | _ => .error .typeError

def systemMessage (content : String) : Fields := [("role", .str "system"), ("content", .str content)]

section Merge

variable (formatting : Formatting)

def system_contents (messages : List Fields) : List Json :=
  ((messages.filter isSystem).map (get_content_from_message formatting)).filter Json.truthy

def other_messages (messages : List Fields) : List Fields := messages.filter (fun message => !isSystem message)

def merge_system_messages (messages : List Fields) : Except PyError (List Fields) :=
  if (system_contents formatting messages).isEmpty then .ok (other_messages messages)
  else ((system_contents formatting messages).mapM joinable).map (fun texts =>
    systemMessage ("\n".intercalate texts) :: other_messages messages)

end Merge

def textParts (items : List Json) : List Fields :=
  (items.filterMap Json.obj?).filter (fun part => decide (getField part "type" = .str "text"))

def partTexts (parts : List Fields) : List String :=
  (parts.filterMap (fun part => (getField part "text").str?)).filter (fun text => decide (text ≠ ""))

def messageTexts (message : Fields) : List String :=
  match getField message "content" with
  | .str text => [text].filter (fun text => decide (text ≠ ""))
  | .arr items => partTexts (textParts items)
  | _ => []

def laterTexts (message : Fields) : List String :=
  match getField message "content" with
  | .arr items => partTexts (textParts items).tail
  | _ => []

def systemTexts (messages : List Fields) : List String := (messages.filter isSystem).flatMap messageTexts

/-- The result has one system message at most, at its beginning, which has the texts of all of them,
and the other messages. -/
def Merged (messages result : List Fields) : Prop :=
  (result = other_messages messages ∧ systemTexts messages = []) ∨
    ∃ content, result = systemMessage content :: other_messages messages ∧
      Occur ((systemTexts messages).map String.toList) [content.toList]

def MergesAll (formatting : Formatting) (messages : List Fields) : Prop :=
  ∃ result, merge_system_messages formatting messages = .ok result ∧ Merged messages result

theorem not_mem_systemTexts {messages : List Fields} : "" ∉ systemTexts messages := by
  intro member
  obtain ⟨message, _, inside⟩ := List.mem_flatMap.mp member
  rw [messageTexts] at inside
  split at inside
  · simp at inside
  · simp [partTexts] at inside
  · cases inside

/-- What the helper gives for a message is joined: it is a text or nothing. -/
def Readable (formatting : Formatting) (message : Fields) : Prop :=
  (get_content_from_message formatting message).truthy = true →
    ∃ text, get_content_from_message formatting message = .str text

section Kept

variable {formatting : Formatting} {messages : List Fields} {message : Fields}

def keptTexts (formatting : Formatting) (message : Fields) : List String :=
  ([get_content_from_message formatting message].filter Json.truthy).filterMap Json.str?

theorem joined_iff {texts : List String} :
    (system_contents formatting messages).mapM joinable = .ok texts ↔
      (∀ message ∈ messages, isSystem message = true → Readable formatting message) ∧
        texts = (messages.filter isSystem).flatMap (keptTexts formatting) := by
  have each : ∀ {message : Fields} {rest : List Json} {texts : List String},
      ([get_content_from_message formatting message].filter Json.truthy ++ rest).mapM joinable =
        .ok texts ↔ Readable formatting message ∧ ∃ later, rest.mapM joinable = .ok later ∧
          texts = keptTexts formatting message ++ later := by
    intro message rest texts
    rw [Readable, keptTexts]
    cases filled : (get_content_from_message formatting message).truthy with
    | false => simp [filled]
    | true =>
      rw [List.filter_cons_of_pos filled, List.filter_nil, List.singleton_append, List.mapM_cons]
      cases content : get_content_from_message formatting message with
      | str text =>
        cases rest.mapM joinable with
        | error raised => simp [joinable, bind, Except.bind]
        | ok later => simp [joinable, bind, Except.bind, pure, Except.pure, Json.str?, eq_comm]
      | _ =>
        refine iff_of_false (fun joined => by cases joined) (fun both => ?_)
        obtain ⟨_, same⟩ := both.1 rfl
        cases same
  rw [system_contents]
  induction messages generalizing texts with
  | nil =>
    constructor
    · intro joined
      cases joined
      exact ⟨by simp, rfl⟩
    · rintro ⟨_, rfl⟩
      rfl
  | cons message rest ih =>
    cases system : isSystem message with
    | false => simpa [system] using ih
    | true =>
      rw [List.filter_cons_of_pos system, List.map_cons, ← List.singleton_append, List.filter_append, each]
      constructor
      · rintro ⟨readable, later, joined, rfl⟩
        obtain ⟨others, rfl⟩ := ih.mp joined
        refine ⟨fun other member => ?_, rfl⟩
        rcases List.mem_cons.mp member with rfl | member
        · exact fun _ => readable
        · exact others other member
      · rintro ⟨readable, rfl⟩
        exact ⟨readable message List.mem_cons_self system, _,
          ih.mpr ⟨fun other member => readable other (List.mem_cons_of_mem _ member), rfl⟩, rfl⟩

theorem firstText_eq (items : List Json) :
    firstText items = (textParts items).head?.map (fun part => getField part "text") := by
  rw [firstText, textParts, List.head?_filter]

theorem partTexts_cons (part : Fields) (rest : List Fields) :
    partTexts (part :: rest) =
      (([getField part "text"].filter Json.truthy).filterMap Json.str?) ++ partTexts rest := by
  rw [partTexts, partTexts, List.filterMap_cons]
  cases found : getField part "text" with
  | str text =>
    by_cases empty : text = ""
    · simp [empty, Json.str?, Json.truthy]
    · simp [empty, Json.str?, Json.truthy]
  | _ => simp [Json.str?, List.filterMap_filter]

theorem texts_kept (message : Fields) :
    messageTexts message = [] ∧ laterTexts message = [] ∨
      messageTexts message = keptTexts formatting message ++ laterTexts message := by
  rw [messageTexts, laterTexts, keptTexts, get_content_from_message]
  cases content : getField message "content" with
  | str text =>
    by_cases empty : text = ""
    · exact .inl ⟨by simp [empty], rfl⟩
    · exact .inr (by simp [empty, Json.truthy, Json.str?])
  | arr items =>
    cases parts : textParts items with
    | nil =>
      simp only [parts]
      exact .inl ⟨rfl, rfl⟩
    | cons part rest =>
      refine .inr ?_
      simp only [parts, firstText_eq, List.head?_cons, Option.map_some, Option.getD_some, List.tail_cons]
      exact partTexts_cons part rest
  | _ => exact .inl ⟨rfl, rfl⟩

theorem kept_of_silent (silent : get_output_text formatting (getField message "output") = "")
    (nothing : messageTexts message = []) : keptTexts formatting message = [] := by
  rw [messageTexts] at nothing
  rw [keptTexts, get_content_from_message, silent]
  cases content : getField message "content" with
  | str text =>
    have empty : text = "" := by simpa [content] using nothing
    simp [empty, Json.truthy, Json.orElse, Json.str?]
  | arr items =>
    rw [content] at nothing
    cases parts : textParts items with
    | nil => simp [firstText_eq, parts, Json.truthy, Json.orElse, Json.str?]
    | cons part rest =>
      simp only [parts, partTexts_cons] at nothing
      simp only [firstText_eq, parts, List.head?_cons, Option.map_some, Option.getD_some]
      exact (List.append_eq_nil_iff.mp nothing).1
  | obj fields => cases fields <;> simp [Json.truthy, Json.orElse, Json.str?]
  | num value => by_cases zero : value = 0 <;> simp [zero, Json.truthy, Json.orElse, Json.str?]
  | bool value => cases value <;> simp [Json.truthy, Json.orElse, Json.str?]
  | null => simp [Json.truthy, Json.orElse, Json.str?]

def shown (texts : List String) : Nat :=
  (texts.map String.toList).flatten.countP (fun char => decide (char ≠ '\n'))

theorem shown_append (first second : List String) : shown (first ++ second) = shown first + shown second := by
  rw [shown, List.map_append, List.flatten_append, List.countP_append]
  rfl

theorem occur_texts (kept : laterTexts message = []) :
    Occur ((messageTexts message).map String.toList) ((keptTexts formatting message).map String.toList) := by
  rcases @texts_kept formatting message with ⟨none, _⟩ | whole
  · rw [none]
    exact .none _
  · rw [whole, kept, List.append_nil]
    generalize keptTexts formatting message = texts
    induction texts with
    | nil => exact .done
    | cons text rest ih => exact .whole _ ih

theorem merges_of_kept
    (kept : ∀ message ∈ messages, isSystem message = true →
      Readable formatting message ∧ laterTexts message = []) : MergesAll formatting messages := by
  have joined : (system_contents formatting messages).mapM joinable =
      .ok ((messages.filter isSystem).flatMap (keptTexts formatting)) :=
    joined_iff.mpr ⟨fun message member system => (kept message member system).1, rfl⟩
  have occurs : Occur ((systemTexts messages).map String.toList)
      (((messages.filter isSystem).flatMap (keptTexts formatting)).map String.toList) := by
    rw [systemTexts, List.map_flatMap, List.map_flatMap]
    refine Occur.flatMap (fun message member => occur_texts ?_)
    exact (kept message (List.mem_of_mem_filter member) (List.of_mem_filter member)).2
  rw [MergesAll, merge_system_messages]
  by_cases none : system_contents formatting messages = []
  · refine ⟨_, by rw [none]; rfl, .inl ⟨rfl, ?_⟩⟩
    rw [none, List.mapM_nil] at joined
    rw [← Except.ok.inj joined] at occurs
    have within := occurs.sublist
    rw [List.map_nil, List.flatten_nil, List.sublist_nil, List.flatten_eq_nil_iff] at within
    rw [List.eq_nil_iff_forall_not_mem]
    intro text member
    have empty := within text.toList (List.mem_map_of_mem member)
    rw [String.toList_eq_nil_iff] at empty
    exact not_mem_systemTexts (empty ▸ member)
  · rw [if_neg (by simpa using none), joined]
    refine ⟨_, rfl, .inr ⟨_, rfl, ?_⟩⟩
    rw [String.toList_intercalate]
    exact occurs.join _

theorem shown_systems {system : List Fields} (each : ∀ message ∈ system, shown (messageTexts message) =
      shown (keptTexts formatting message) + shown (laterTexts message)) :
    shown (system.flatMap messageTexts) = shown (system.flatMap (keptTexts formatting)) +
      (system.map (fun message => shown (laterTexts message))).sum := by
  induction system with
  | nil => rfl
  | cons message rest ih =>
    have first := each message List.mem_cons_self
    have later := ih (fun other member => each other (List.mem_cons_of_mem _ member))
    rw [List.flatMap_cons, List.flatMap_cons, shown_append, shown_append, List.map_cons, List.sum_cons]
    omega

theorem shown_of_merges
    (silent : ∀ message ∈ messages, isSystem message = true →
      get_output_text formatting (getField message "output") = "")
    (merges : MergesAll formatting messages) :
    (∀ message ∈ messages, isSystem message = true → Readable formatting message) ∧
      ∀ message ∈ messages, isSystem message = true → shown (laterTexts message) = 0 := by
  obtain ⟨result, merged, holds⟩ := merges
  -- all that is shown is in the texts that are kept
  obtain ⟨readable, within⟩ : (∀ message ∈ messages, isSystem message = true → Readable formatting message) ∧
      shown (systemTexts messages) ≤ shown ((messages.filter isSystem).flatMap (keptTexts formatting)) := by
    rw [merge_system_messages] at merged
    split at merged
    · rename_i none
      rw [List.isEmpty_iff] at none
      have joined : (system_contents formatting messages).mapM joinable = .ok [] := by rw [none]; rfl
      refine ⟨(joined_iff.mp joined).1, ?_⟩
      rcases holds with ⟨_, empty⟩ | ⟨content, same, _⟩
      · rw [empty]
        exact Nat.zero_le _
      · have member : systemMessage content ∈ other_messages messages := by
          rw [Except.ok.inj merged, same]
          exact List.mem_cons_self
        have other := List.of_mem_filter member
        simp [isSystem, systemMessage, getField] at other
    · obtain ⟨texts, joined, rfl⟩ := map_eq_ok.mp merged
      obtain ⟨readable, rfl⟩ := joined_iff.mp joined
      refine ⟨readable, ?_⟩
      rcases holds with ⟨same, empty⟩ | ⟨content, same, occurs⟩
      · rw [empty]
        exact Nat.zero_le _
      · obtain ⟨same, _⟩ := List.cons.inj same
        have content_eq : "\n".intercalate ((messages.filter isSystem).flatMap (keptTexts formatting)) =
            content := by simpa [systemMessage] using same
        have count := occurs.sublist.countP_le (p := fun char => decide (char ≠ '\n'))
        rw [List.flatten_singleton, ← content_eq, String.toList_intercalate,
          Occur.countP_join (by simp)] at count
        exact count
  refine ⟨readable, ?_⟩
  have each : ∀ message ∈ messages.filter isSystem,
      shown (messageTexts message) = shown (keptTexts formatting message) + shown (laterTexts message) := by
    intro message member
    rcases @texts_kept formatting message with ⟨none, later⟩ | whole
    · rw [none, later, kept_of_silent (silent message (List.mem_of_mem_filter member)
        (List.of_mem_filter member)) none]
      rfl
    · rw [whole, shown_append]
  rw [systemTexts] at within
  have total := shown_systems each
  have none : ((messages.filter isSystem).map (fun message => shown (laterTexts message))).sum = 0 := by omega
  intro message member system
  have part : shown (laterTexts message) ∈
      (messages.filter isSystem).map (fun message => shown (laterTexts message)) :=
    List.mem_map_of_mem (List.mem_filter.mpr ⟨member, system⟩)
  exact List.sum_eq_zero_iff_forall_eq_nat.mp none _ part

end Kept

/-- Nothing of the system messages is lost if each list content has one text that is not empty at
most, its first; and what else is shown of such a list is lost, unless the output of a message has it. -/
theorem merge_system_messages_keeps (formatting : Formatting) (messages : List Fields) :
    ((∀ message ∈ messages, isSystem message = true →
        Readable formatting message ∧ laterTexts message = []) → MergesAll formatting messages) ∧
      ((∀ message ∈ messages, isSystem message = true →
          get_output_text formatting (getField message "output") = "") →
        MergesAll formatting messages → ∀ message ∈ messages, isSystem message = true →
          Readable formatting message ∧ ∀ text ∈ laterTexts message, ∀ char ∈ text.toList, char = '\n') := by
  refine ⟨merges_of_kept, fun silent merges message member system => ?_⟩
  obtain ⟨readable, hidden⟩ := shown_of_merges silent merges
  refine ⟨readable message member system, fun text later char inside => ?_⟩
  have none := List.countP_eq_zero.mp (hidden message member system) char
    (List.mem_flatten_of_mem (List.mem_map_of_mem later) inside)
  simpa using none

def twoParts : Fields :=
  [("role", .str "system"), ("content", .arr [.obj [("type", .str "text"), ("text", .str "a")],
    .obj [("type", .str "text"), ("text", .str "b")]])]

theorem second_part_lost : ¬ ∀ (formatting : Formatting) (messages : List Fields),
    MergesAll formatting messages := by
  intro merges
  obtain ⟨result, merged, holds⟩ := merges ⟨fun _ => "", fun _ => ""⟩ [twoParts]
  have same : merge_system_messages ⟨fun _ => "", fun _ => ""⟩ [twoParts] = .ok [systemMessage "a"] := rfl
  obtain rfl := Except.ok.inj (same.symm.trans merged)
  have texts : systemTexts [twoParts] = ["a", "b"] := rfl
  rcases holds with ⟨_, none⟩ | ⟨content, shown, occurs⟩
  · rw [texts] at none
    cases none
  · have content_eq : "a" = content := by simpa [systemMessage] using (List.cons.inj shown).1
    have short := occurs.sublist.length_le
    rw [← content_eq, texts] at short
    exact absurd short (by simp)

end OpenWebui.Utils
