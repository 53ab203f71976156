import Mathlib.Data.List.Forall2
import OpenWebui.Templates.Variables

/-! How much the variables with a number let through: at most that number, except where a slice of
the last zero items is the whole. -/

namespace OpenWebui.Templates

/-- A number as it is written, not always in the fewest digits. -/
structure Numeral (characters : Characters) where
  digits : List Char
  filled : digits ≠ []
  decimal : ∀ char ∈ digits, (characters.decimal char).isSome = true

variable {characters : Characters}

def Numeral.value (numeral : Numeral characters) : Nat :=
  numeral.digits.foldl (fun value char => 10 * value + (characters.decimal char).getD 0) 0

/-- The interpreter reads the number. -/
def Numeral.Short (numeral : Numeral characters) : Prop :=
  numeral.digits.length ≤ characters.int_max_str_digits

section Spelling

variable (mode : Mode) (numeral : Numeral characters)

/-- `{{prompt:start:n}}`, and so on. -/
def promptText : List Char :=
  opening ++ "prompt:".toList ++ mode.name ++ [':'] ++ (numeral.digits ++ closing)

/-- `{{MESSAGES:START:n}}`, and so on. -/
def messagesText (variable_name : List Char) : List Char :=
  opening ++ variable_name ++ [':'] ++ mode.upperName ++ [':'] ++ (numeral.digits ++ closing)

/-- `start:n`, and so on. -/
def filterText : List Char := mode.name ++ [':'] ++ numeral.digits

/-- `{{MESSAGES|start:n}}`, and so on. -/
def filteredText (variable_name : List Char) : List Char :=
  opening ++ variable_name ++ ['|'] ++ mode.name ++ [':'] ++ (numeral.digits ++ closing)

end Spelling

section Reading

theorem after_append {same : Char → Char → Bool} (self : ∀ char, same char char = true)
    (pattern rest : List Char) : after same pattern (pattern ++ rest) = some rest := by
  induction pattern with
  | nil => rfl
  | cons letter pattern ih => rw [List.cons_append, after, if_pos (self letter), ih]

theorem after_append_left {same : Char → Char → Bool} (self : ∀ char, same char char = true)
    (front pattern text : List Char) :
    after same (front ++ pattern) (front ++ text) = after same pattern text := by
  induction front with
  | nil => rfl
  | cons letter front ih => rw [List.cons_append, List.cons_append, after, if_pos (self letter), ih]

theorem sameLetter_self (char : Char) : sameLetter char char = true := by simp [sameLetter]

theorem beq_self (char : Char) : (char == char) = true := beq_self_eq_true char

theorem readDigits_append (numeral : Numeral characters) {char : Char} {rest : List Char}
    (ends : characters.decimal char = none) :
    readDigits characters (numeral.digits ++ char :: rest) = some (numeral.digits, char :: rest) := by
  have stops : ((characters.decimal char).isSome) = false := by rw [ends]; rfl
  rw [readDigits, List.takeWhile_append_of_pos numeral.decimal,
    List.dropWhile_append_of_pos numeral.decimal, List.takeWhile_cons, List.dropWhile_cons, stops]
  simp [numeral.filled]

theorem readDigits_closing (numeral : Numeral characters) :
    readDigits characters (numeral.digits ++ closing) = some (numeral.digits, closing) :=
  readDigits_append numeral characters.brace_not_decimal

theorem scan_variable {ν : Type} {read : List Char → Option (ν × List Char)} {text : List Char}
    {variable_ : ν} (filled : text ≠ []) (found : read text = some (variable_, [])) :
    scan read 0 text = [.inr variable_] := by
  have skipped : ∀ (skip : Nat) (rest : List Char), rest.length ≤ skip → scan read skip rest = [] := by
    intro skip rest
    induction rest generalizing skip with
    | nil =>
      intro _
      cases skip <;> rfl
    | cons char rest ih =>
      intro enough
      cases skip with
      | zero => simp at enough
      | succ skip => exact ih skip (Nat.le_of_succ_le_succ enough)
  obtain ⟨char, rest, rfl⟩ := List.exists_cons_of_ne_nil filled
  have end_ : scan read (rest.length - 0) rest = [] := skipped _ rest (Nat.le_refl _)
  rw [scan, found]
  exact congrArg _ end_

theorem sub_variable {ν : Type} {read : List Char → Option (ν × List Char)}
    {expand : ν → Except PyError (List Char)} {text : List Char} {variable_ : ν} (filled : text ≠ [])
    (found : read text = some (variable_, [])) : sub read expand text = expand variable_ := by
  rw [sub, scan_variable filled found, List.mapM_cons, List.mapM_nil]
  cases expanded : expand variable_ with
  | error error => simp [bind, Except.bind, Except.map, expanded]
  | ok value => simp [bind, Except.bind, Except.map, pure, Except.pure, expanded]

theorem promptText_ne_nil (mode : Mode) (numeral : Numeral characters) :
    promptText mode numeral ≠ [] := by simp [promptText, opening]

theorem findSome_mode {β : Type} {attempt : Mode → Option β} {mode : Mode} {found : β}
    (here : attempt mode = some found) (others : ∀ other, other ≠ mode → attempt other = none) :
    Mode.all.findSome? attempt = some found := by
  cases mode with
  | start => rw [Mode.all, List.findSome?_cons, here]
  | end_ => rw [Mode.all, List.findSome?_cons, others .start nofun, List.findSome?_cons, here]
  | middletruncate =>
    rw [Mode.all, List.findSome?_cons, others .start nofun, List.findSome?_cons,
      others .end_ nofun, List.findSome?_cons, here]

theorem readPrompt_promptText (mode : Mode) (numeral : Numeral characters) :
    readPrompt characters (promptText mode numeral) = some (.limited mode numeral.digits, []) := by
  have not_whole : after sameLetter (opening ++ "prompt".toList ++ closing)
      (promptText mode numeral) = none := by cases mode <;> rfl
  have here : readLimited characters (promptText mode numeral) mode =
      some (.limited mode numeral.digits, []) := by
    have ends : after sameLetter closing closing = some [] := by decide
    rw [readLimited, promptText, after_append sameLetter_self]
    simp [readDigits_closing, ends]
  have others : ∀ other, other ≠ mode →
      readLimited characters (promptText mode numeral) other = none := by
    intro other different
    have unlike : after sameLetter (opening ++ "prompt:".toList ++ other.name ++ [':'])
        (promptText mode numeral) = none := by
      cases other <;> cases mode <;> first | exact absurd rfl different | rfl
    rw [readLimited, unlike]
    rfl
  rw [readPrompt, not_whole]
  exact findSome_mode here others

theorem readMessages_messagesText (mode : Mode) (numeral : Numeral characters)
    (variable_name : List Char) :
    readMessages characters variable_name (messagesText mode numeral variable_name) =
      some (⟨some (mode, numeral.digits), none⟩, []) := by
  have front (rest : List Char) : after (· == ·) (opening ++ variable_name)
      (opening ++ variable_name ++ rest) = some rest := after_append beq_self _ rest
  have split : messagesText mode numeral variable_name =
      opening ++ variable_name ++ ([':'] ++ mode.upperName ++ [':'] ++ (numeral.digits ++ closing)) := by
    simp [messagesText]
  have not_bare : (after (· == ·) (opening ++ variable_name)
      (messagesText mode numeral variable_name)).bind (readFilter characters) = none := by
    rw [split, front]
    rfl
  have here : readSelected characters variable_name (messagesText mode numeral variable_name) mode =
      some (⟨some (mode, numeral.digits), none⟩, []) := by
    have ends : readFilter characters closing = some (none, []) := by
      have closed : after (· == ·) closing closing = some [] := by decide
      rw [readFilter, closed]
    rw [readSelected, messagesText, after_append beq_self]
    simp [readDigits_closing, ends]
  have others : ∀ other, other ≠ mode →
      readSelected characters variable_name (messagesText mode numeral variable_name) other = none := by
    intro other different
    have unlike : after (· == ·) (opening ++ variable_name ++ [':'] ++ other.upperName ++ [':'])
        (messagesText mode numeral variable_name) = none := by
      rw [split, List.append_assoc, List.append_assoc, after_append_left beq_self]
      cases other <;> cases mode <;> first | exact absurd rfl different | rfl
    rw [readSelected, unlike]
    rfl
  rw [readMessages, not_bare]
  exact findSome_mode here others

theorem readMessages_filteredText (mode : Mode) (numeral : Numeral characters)
    (variable_name : List Char) :
    readMessages characters variable_name (filteredText mode numeral variable_name) =
      some (⟨none, some (filterText mode numeral)⟩, []) := by
  have split : filteredText mode numeral variable_name =
      opening ++ variable_name ++ (['|'] ++ (mode.name ++ ':' :: (numeral.digits ++ closing))) := by
    simp [filteredText]
  have words : ∀ char ∈ mode.name, characters.word char = true := by
    have lowered : mode.name.all Char.isLower = true := by cases mode <;> rfl
    intro char member
    exact characters.letter_word char (List.all_eq_true.mp lowered char member)
  have named : mode.name ≠ [] := by cases mode <;> decide
  have no_word : ¬ characters.word ':' = true := by rw [characters.colon_not_word]; nofun
  have filter_read : readFilter characters
      (['|'] ++ (mode.name ++ ':' :: (numeral.digits ++ closing))) =
      some (some (filterText mode numeral), []) := by
    have open_ : after (· == ·) closing
        (['|'] ++ (mode.name ++ ':' :: (numeral.digits ++ closing))) = none := rfl
    have closed : after (· == ·) closing closing = some [] := by decide
    have colon : after (· == ·) [':'] (':' :: (numeral.digits ++ closing)) =
        some (numeral.digits ++ closing) := after_append beq_self [':'] _
    have taken : (mode.name ++ ':' :: (numeral.digits ++ closing)).takeWhile characters.word =
        mode.name := by
      rw [List.takeWhile_append_of_pos words, List.takeWhile_cons_of_neg no_word, List.append_nil]
    have dropped : (mode.name ++ ':' :: (numeral.digits ++ closing)).dropWhile characters.word =
        ':' :: (numeral.digits ++ closing) := by
      rw [List.dropWhile_append_of_pos words, List.dropWhile_cons_of_neg no_word]
    rw [readFilter, open_]
    dsimp only
    rw [after_append beq_self]
    simp only [Option.bind_eq_bind, Option.bind_some, taken, dropped, if_neg named, colon,
      readDigits_closing, closed, filterText]
  rw [readMessages, split, after_append beq_self, Option.bind_some, filter_read]

end Reading

section Numbers

variable {numeral : Numeral characters}

theorem int_short (short : numeral.Short) :
    int characters numeral.digits = .ok numeral.value := by
  rw [int, if_neg]
  · rfl
  · rintro (none | other | long)
    · exact numeral.filled none
    · obtain ⟨char, member, not_decimal⟩ := List.any_eq_true.mp other
      have digit := numeral.decimal char member
      rw [Option.isNone_iff_eq_none] at not_decimal
      rw [not_decimal] at digit
      cases digit
    · exact Nat.not_lt.mpr short long

theorem int_long (long : ¬ numeral.Short) : int characters numeral.digits = .error .valueError :=
  if_pos (Or.inr (Or.inr (Nat.not_le.mp long)))

end Numbers

/-- At most so many characters, in one part or in two with dots between them. -/
def Shortened (n : Nat) (text kept : List Char) : Prop :=
  (kept <+: text ∧ kept.length ≤ n) ∨
    ∃ front back, front <+: text ∧ back <:+ text ∧ front.length + back.length ≤ n ∧
      kept = front ++ ellipsis ++ back

/-- The first or the last characters, or some of both. -/
def Kept (mode : Mode) (n : Nat) (text kept : List Char) : Prop :=
  match mode with
  | .start => kept = text.take n
  | .end_ => kept = text.drop (text.length - n)
  | .middletruncate => Shortened n text kept

/-- At most so many messages, none twice and in order: the first, the last, or some of both. -/
structure Selected (mode : Mode) (n : Nat) (messages selected : List Fields) : Prop where
  order : selected.Sublist messages
  most : selected.length ≤ n
  first : mode = .start → selected = messages.take n
  last : mode = .end_ → selected = messages.drop (messages.length - n)

def partText (item : Json) : Option (List Char) :=
  match item with
  | .obj fields =>
    if getField fields "type" = .str "text" then
      (getFieldD fields "text" (.str "")).str?.map String.toList
    else none
  | _ => none

def texts (message : Fields) : List (List Char) :=
  match getField message "content" with
  | .str text => [text.toList]
  | .arr items => items.filterMap partText
  | _ => []

/-- The text of every text part is a text. -/
def TextParts (message : Fields) : Prop :=
  ∀ items, getField message "content" = .arr items → ∀ fields, Json.obj fields ∈ items →
    getField fields "type" = .str "text" → (getFieldD fields "text" (.str "")).str?.isSome = true

/-- Every variable with the number, and every filter, lets through no more than it. -/
structure Respected (formatting : Formatting) (numeral : Numeral characters) (prompt : List Char)
    (messages : List Fields) : Prop where
  prompts : ∀ mode, ∃ kept,
    replace_prompt_variable characters (promptText mode numeral) prompt = .ok kept ∧
      Kept mode numeral.value prompt kept
  selections : ∀ mode variable_name, ∃ selected,
    selectMessages characters messages (some (mode, numeral.digits)) = .ok selected ∧
      Selected mode numeral.value messages selected ∧
      replace_messages_variable characters formatting (messagesText mode numeral variable_name)
        (some messages) variable_name = get_messages_content characters formatting selected
  filters : (∀ message ∈ messages, TextParts message) → ∀ mode variable_name, ∃ left,
    apply_content_filter characters formatting messages (filterText mode numeral) = .ok left ∧
      List.Forall₂ (fun message result =>
        List.Forall₂ (Kept mode numeral.value) (texts message) (texts result)) messages left ∧
      replace_messages_variable characters formatting (filteredText mode numeral variable_name)
        (some messages) variable_name = get_messages_content characters formatting left

section Slices

variable {α : Type}

theorem fromEnd_of_pos {n : Nat} (positive : 0 < n) (items : List α) :
    fromEnd n items = items.drop (items.length - n) := if_neg (by omega)

theorem fromEnd_zero (items : List α) : fromEnd 0 items = items := rfl

theorem take_append_drop_sublist {items : List α} {i j : Nat} (apart : i ≤ j) :
    (items.take i ++ items.drop j).Sublist items := by
  conv_rhs => rw [← List.take_append_drop i items]
  refine List.Sublist.append (List.Sublist.refl _) ?_
  obtain ⟨more, rfl⟩ := Nat.exists_eq_add_of_le apart
  rw [← List.drop_drop]
  exact List.drop_sublist more _

theorem shortened_ends {text : List Char} {n first last : Nat} (whole : first + last = n)
    (positive : 0 < last) :
    Shortened n text (text.take first ++ ellipsis ++ fromEnd last text) := by
  refine Or.inr ⟨_, _, List.take_prefix _ _, ?_, ?_, rfl⟩
  · rw [fromEnd_of_pos positive]
    exact List.drop_suffix _ _
  · rw [fromEnd_of_pos positive, List.length_take, List.length_drop]
    omega

theorem not_shortened {text front : List Char} {n : Nat} (long : n < front.length + text.length) :
    ¬ Shortened n text (front ++ ellipsis ++ text) := by
  rintro (⟨_, short⟩ | ⟨start, back, _, _, short, same⟩)
  · simp only [List.length_append] at short
    omega
  · have lengths := congrArg List.length same
    simp only [List.length_append] at lengths
    omega

end Slices

section Prompts

variable {numeral : Numeral characters} {prompt : List Char}

theorem replace_prompt_promptText (mode : Mode) (prompt : List Char) :
    replace_prompt_variable characters (promptText mode numeral) prompt =
      expandPrompt characters prompt (.limited mode numeral.digits) :=
  sub_variable (promptText_ne_nil mode numeral) (readPrompt_promptText mode numeral)

theorem prompts_kept (short : numeral.Short) (zero : numeral.value = 0 → prompt = [])
    (one : numeral.value = 1 → prompt.length ≤ 1) (mode : Mode) :
    ∃ kept, replace_prompt_variable characters (promptText mode numeral) prompt = .ok kept ∧
      Kept mode numeral.value prompt kept := by
  rw [replace_prompt_promptText]
  cases mode with
  | start =>
    rw [expandPrompt, int_short short]
    exact ⟨_, rfl, rfl⟩
  | end_ =>
    rw [expandPrompt, int_short short]
    refine ⟨_, rfl, ?_⟩
    cases limit : numeral.value with
    | zero => rw [zero limit]; rfl
    | succ n => exact fromEnd_of_pos (Nat.succ_pos n) prompt
  | middletruncate =>
    rw [expandPrompt, int_short short]
    refine ⟨_, rfl, ?_⟩
    dsimp only
    split
    · rename_i fits
      exact Or.inl ⟨List.prefix_rfl, fits⟩
    · rename_i longer
      have large : 2 ≤ numeral.value := by
        by_contra small
        rcases Nat.lt_succ_iff_lt_or_eq.mp (Nat.not_le.mp small) with none | same
        · have empty := zero (by omega)
          rw [empty] at longer
          exact longer (Nat.zero_le _)
        · have bound := one same
          omega
      exact shortened_ends (by omega) (by omega)

theorem short_of_prompts {kept : List Char}
    (done : replace_prompt_variable characters (promptText .start numeral) prompt = .ok kept) :
    numeral.Short := by
  by_contra long
  rw [replace_prompt_promptText, expandPrompt, int_long long] at done
  cases done

theorem empty_of_prompts (short : numeral.Short) (limit : numeral.value = 0) {kept : List Char}
    (done : replace_prompt_variable characters (promptText .end_ numeral) prompt = .ok kept)
    (last : Kept .end_ numeral.value prompt kept) : prompt = [] := by
  rw [replace_prompt_promptText, expandPrompt, int_short short] at done
  obtain rfl := Except.ok.inj done
  rw [Kept, limit] at last
  dsimp only at last
  rw [fromEnd_zero] at last
  simpa using last

theorem single_of_prompts (short : numeral.Short) (limit : numeral.value = 1) {kept : List Char}
    (done : replace_prompt_variable characters (promptText .middletruncate numeral) prompt = .ok kept)
    (shortened : Kept .middletruncate numeral.value prompt kept) : prompt.length ≤ 1 := by
  by_contra longer
  rw [replace_prompt_promptText, expandPrompt, int_short short, limit] at done
  dsimp only [Except.map] at done
  rw [if_neg longer] at done
  obtain rfl := Except.ok.inj done
  rw [Kept, limit] at shortened
  exact not_shortened (by omega) shortened

end Prompts

section Selections

variable {numeral : Numeral characters} {messages : List Fields}

theorem selectMessages_start (short : numeral.Short) (messages : List Fields) :
    selectMessages characters messages (some (.start, numeral.digits)) =
      .ok (messages.take numeral.value) := by rw [selectMessages, int_short short]; rfl

theorem selectMessages_end (short : numeral.Short) (messages : List Fields) :
    selectMessages characters messages (some (.end_, numeral.digits)) =
      .ok (fromEnd numeral.value messages) := by rw [selectMessages, int_short short]; rfl

theorem selectMessages_middle (short : numeral.Short) (messages : List Fields) :
    selectMessages characters messages (some (.middletruncate, numeral.digits)) =
      .ok (if messages.length ≤ numeral.value then messages
        else messages.take (numeral.value / 2) ++ (if numeral.value % 2 = 0
          then fromEnd (numeral.value / 2) messages
          else fromEnd (numeral.value / 2 + 1) messages)) := by
  rw [selectMessages, int_short short]
  rfl

theorem selected_drop (n : Nat) (messages : List Fields) :
    Selected .end_ n messages (messages.drop (messages.length - n)) :=
  ⟨List.drop_sublist _ _, by rw [List.length_drop]; omega, nofun, fun _ => rfl⟩

theorem selected_ends {n first last : Nat} (whole : first + last = n) (positive : 0 < last)
    (longer : n < messages.length) :
    Selected .middletruncate n messages (messages.take first ++ fromEnd last messages) := by
  rw [fromEnd_of_pos positive]
  refine ⟨take_append_drop_sublist (by omega), ?_, nofun, nofun⟩
  rw [List.length_append, List.length_take, List.length_drop]
  omega

theorem messages_selected (short : numeral.Short) (zero : numeral.value = 0 → messages = [])
    (mode : Mode) :
    ∃ selected, selectMessages characters messages (some (mode, numeral.digits)) = .ok selected ∧
      Selected mode numeral.value messages selected := by
  cases mode with
  | start =>
    refine ⟨_, selectMessages_start short messages, List.take_sublist _ _, ?_, fun _ => rfl, nofun⟩
    rw [List.length_take]
    exact Nat.min_le_left _ _
  | end_ =>
    refine ⟨_, selectMessages_end short messages, ?_⟩
    cases limit : numeral.value with
    | zero => rw [zero limit]; exact selected_drop 0 []
    | succ n =>
      rw [fromEnd_of_pos (Nat.succ_pos n)]
      exact selected_drop (n + 1) messages
  | middletruncate =>
    refine ⟨_, selectMessages_middle short messages, ?_⟩
    split
    · rename_i fits
      exact ⟨List.Sublist.refl _, fits, nofun, nofun⟩
    · rename_i longer
      have positive : numeral.value ≠ 0 := by
        intro limit
        rw [zero limit] at longer
        exact longer (Nat.zero_le _)
      split
      · exact selected_ends (by omega) (by omega) (Nat.not_le.mp longer)
      · exact selected_ends (by omega) (Nat.succ_pos _) (Nat.not_le.mp longer)

theorem empty_of_selections (short : numeral.Short) (limit : numeral.value = 0)
    {selected : List Fields}
    (done : selectMessages characters messages (some (.end_, numeral.digits)) = .ok selected)
    (most : selected.length ≤ numeral.value) : messages = [] := by
  rw [selectMessages_end short, limit, fromEnd_zero] at done
  obtain rfl := Except.ok.inj done
  rw [limit] at most
  exact List.eq_nil_of_length_eq_zero (Nat.le_zero.mp most)

theorem replace_messages_messagesText (formatting : Formatting) (mode : Mode)
    (variable_name : List Char) {selected : List Fields}
    (done : selectMessages characters messages (some (mode, numeral.digits)) = .ok selected) :
    replace_messages_variable characters formatting (messagesText mode numeral variable_name)
      (some messages) variable_name = get_messages_content characters formatting selected := by
  have filled : messagesText mode numeral variable_name ≠ [] := by simp [messagesText, opening]
  rw [replace_messages_variable,
    sub_variable filled (readMessages_messagesText mode numeral variable_name), expandMessages]
  dsimp only
  rw [done]
  rfl

end Selections

section Filters

variable (formatting : Formatting) (mode : Mode) (n : Nat)

theorem kept_truncated (content : List Char) :
    Kept mode n content (truncated mode n content) := by
  rw [truncated.eq_def]
  by_cases none : n = 0
  · rw [if_pos none, none]
    cases mode with
    | start => rfl
    | end_ => exact (by simp : ([] : List Char) = content.drop (content.length - 0))
    | middletruncate => exact Or.inl ⟨List.nil_prefix, Nat.zero_le _⟩
  · rw [if_neg none]
    split
    · rename_i fits
      cases mode with
      | start => exact (List.take_of_length_le fits).symm
      | end_ =>
        have whole : content.length - n = 0 := by omega
        rw [Kept, whole]
        rfl
      | middletruncate => exact Or.inl ⟨List.prefix_rfl, fits⟩
    · cases mode with
      | start => rfl
      | end_ => exact fromEnd_of_pos (Nat.pos_of_ne_zero none) content
      | middletruncate => exact shortened_ends (by omega) (by omega)

theorem truncate_content_text (text : String) :
    truncate_content formatting (.str text) n mode =
      .ok (.str (String.ofList (truncated mode n text.toList))) := by
  rw [truncate_content]
  by_cases none : n = 0
  · rw [if_pos none, truncated.eq_def, if_pos none]
  · rw [if_neg none]
    by_cases empty : text = ""
    · subst empty
      rw [truncated.eq_def, if_neg none]
      simp
    · rw [if_neg (by simpa using empty)]

theorem partText_set (fields : Fields) (text : List Char)
    (kind : getField fields "type" = .str "text") :
    partText (.obj (Assoc.set fields "text" (.str (String.ofList text)))) = some text := by
  have kept : getField (Assoc.set fields "text" (.str (String.ofList text))) "type" = .str "text" := by
    rw [getField_set, if_neg (by decide)]
    exact kind
  rw [partText, if_pos kept, getFieldD, Assoc.lookup_set, if_pos rfl]
  simp [Json.str?]

theorem filterPart_spec (item : Json)
    (typed : ∀ fields, item = .obj fields → getField fields "type" = .str "text" →
      (getFieldD fields "text" (.str "")).str?.isSome = true) :
    ∃ part, filterPart formatting n mode item = .ok part ∧
      partText part = (partText item).map (truncated mode n) := by
  cases item with
  | obj fields =>
    by_cases kind : getField fields "type" = .str "text"
    · obtain ⟨text, given⟩ := Option.isSome_iff_exists.mp (typed fields rfl kind)
      refine ⟨_, by rw [filterPart, if_pos kind, Json.str?_eq_some.mp given,
        truncate_content_text]; rfl, ?_⟩
      rw [partText_set fields _ kind, partText, if_pos kind, given]
      rfl
    · refine ⟨_, by rw [filterPart, if_neg kind], ?_⟩
      rw [partText, if_neg kind]
      rfl
  | _ => exact ⟨_, rfl, rfl⟩

theorem filterParts_spec {items : List Json}
    (typed : ∀ fields, Json.obj fields ∈ items → getField fields "type" = .str "text" →
      (getFieldD fields "text" (.str "")).str?.isSome = true) :
    ∃ parts, items.mapM (filterPart formatting n mode) = .ok parts ∧
      parts.filterMap partText = (items.filterMap partText).map (truncated mode n) := by
  induction items with
  | nil => exact ⟨[], rfl, rfl⟩
  | cons item rest ih =>
    obtain ⟨part, done, text⟩ := filterPart_spec formatting mode n item (fun fields same kind =>
      typed fields (by simp [same]) kind)
    obtain ⟨parts, rest_done, rest_texts⟩ := ih (fun fields member kind =>
      typed fields (List.mem_cons_of_mem item member) kind)
    refine ⟨part :: parts, ?_, ?_⟩
    · rw [List.mapM_cons, done, rest_done]
      rfl
    · rw [List.filterMap_cons, List.filterMap_cons, text]
      cases partText item with
      | none => exact rest_texts
      | some given => exact congrArg _ rest_texts

theorem texts_set (message : Fields) (content : Json) :
    texts (Assoc.set message "content" content) = match content with
      | .str text => [text.toList]
      | .arr items => items.filterMap partText
      | _ => [] := by
  rw [texts, getField_set, if_pos rfl]

theorem filterMessage_spec {message : Fields} (typed : TextParts message) :
    ∃ result, filterMessage formatting n mode message = .ok result ∧
      texts result = (texts message).map (truncated mode n) := by
  cases content : getField message "content" with
  | str text =>
    refine ⟨_, by rw [filterMessage, content]; dsimp only; rw [truncate_content_text]; rfl, ?_⟩
    rw [texts_set, texts, content]
    simp
  | arr items =>
    obtain ⟨parts, done, cut⟩ := filterParts_spec formatting mode n (typed items content)
    refine ⟨_, by rw [filterMessage, content]; dsimp only; rw [done]; rfl, ?_⟩
    rw [texts_set, texts, content]
    exact cut
  | _ => exact ⟨message, by rw [filterMessage, content], by rw [texts, content]; rfl⟩

theorem filterMessages_spec {messages : List Fields}
    (typed : ∀ message ∈ messages, TextParts message) :
    ∃ left, messages.mapM (filterMessage formatting n mode) = .ok left ∧
      List.Forall₂ (fun message result => List.Forall₂ (Kept mode n) (texts message) (texts result))
        messages left := by
  induction messages with
  | nil => exact ⟨[], rfl, .nil⟩
  | cons message rest ih =>
    obtain ⟨result, done, cut⟩ := filterMessage_spec formatting mode n
      (typed message (List.mem_cons_self ..))
    obtain ⟨left, rest_done, kept⟩ := ih (fun other member =>
      typed other (List.mem_cons_of_mem message member))
    refine ⟨result :: left, ?_, .cons ?_ kept⟩
    · rw [List.mapM_cons, done, rest_done]
      rfl
    · rw [cut, List.forall₂_map_right_iff]
      exact List.forall₂_same.mpr (fun text _ => kept_truncated mode n text)

theorem apply_filterText {numeral : Numeral characters} (short : numeral.Short)
    (messages : List Fields) :
    apply_content_filter characters formatting messages (filterText mode numeral) =
      messages.mapM (filterMessage formatting numeral.value mode) := by
  have no_colon : ':' ∉ numeral.digits := by
    intro member
    have digit := numeral.decimal ':' member
    rw [characters.colon_not_decimal] at digit
    cases digit
  have plain : ':' ∉ mode.name := by cases mode <;> decide
  have parts : (filterText mode numeral).splitOn ':' = [mode.name, numeral.digits] := by
    rw [filterText, List.append_assoc, List.singleton_append, List.splitOn_append_cons_self,
      List.splitOn_eq_singleton plain, List.splitOn_eq_singleton no_colon]
    rfl
  have named : modeOf mode.name = some mode := by cases mode <;> decide
  rw [apply_content_filter, parts]
  dsimp only
  rw [int_short short, named]

theorem replace_messages_filteredText (numeral : Numeral characters) (variable_name : List Char)
    {messages left : List Fields}
    (done : apply_content_filter characters formatting messages (filterText mode numeral) = .ok left) :
    replace_messages_variable characters formatting (filteredText mode numeral variable_name)
      (some messages) variable_name = get_messages_content characters formatting left := by
  have filled : filteredText mode numeral variable_name ≠ [] := by simp [filteredText, opening]
  rw [replace_messages_variable,
    sub_variable filled (readMessages_filteredText mode numeral variable_name), expandMessages]
  dsimp only [selectMessages, filtered, bind, Except.bind]
  rw [done]

end Filters

/-- The variables and the filters keep to a number exactly where the interpreter reads it, and where
it is zero with nothing to put in, or one with a prompt of at most one character, or larger. -/
theorem template_limits_respected_iff (characters : Characters) (formatting : Formatting)
    (numeral : Numeral characters) (prompt : List Char) (messages : List Fields) :
    Respected formatting numeral prompt messages ↔
      numeral.Short ∧ (numeral.value = 0 → prompt = [] ∧ messages = []) ∧
        (numeral.value = 1 → prompt.length ≤ 1) := by
  constructor
  · intro respected
    obtain ⟨_, started, _⟩ := respected.prompts .start
    have short := short_of_prompts started
    refine ⟨short, fun limit => ⟨?_, ?_⟩, fun limit => ?_⟩
    · obtain ⟨kept, done, last⟩ := respected.prompts .end_
      exact empty_of_prompts short limit done last
    · obtain ⟨selected, done, selection, _⟩ := respected.selections .end_ []
      exact empty_of_selections short limit done selection.most
    · obtain ⟨kept, done, shortened⟩ := respected.prompts .middletruncate
      exact single_of_prompts short limit done shortened
  · rintro ⟨short, zero, one⟩
    refine ⟨prompts_kept short (fun limit => (zero limit).1) one, fun mode variable_name => ?_,
      fun typed mode variable_name => ?_⟩
    · obtain ⟨selected, done, selection⟩ :=
        @messages_selected _ _ messages short (fun limit => (zero limit).2) mode
      exact ⟨selected, done, selection,
        replace_messages_messagesText formatting mode variable_name done⟩
    · obtain ⟨left, done, kept⟩ := filterMessages_spec formatting mode numeral.value typed
      have applied : apply_content_filter characters formatting messages (filterText mode numeral) =
          .ok left := by rw [apply_filterText formatting mode short, done]
      exact ⟨left, applied, kept,
        replace_messages_filteredText formatting mode numeral variable_name applied⟩

section Samples

def alphabet : Characters where
  decimal char := if char.isDigit then some (char.toNat - 48) else none
  word char := char.isAlphanum || char == '_'
  upper text := text.toUpper
  int_max_str_digits := 4300
  brace_not_decimal := by decide
  colon_not_decimal := by decide
  colon_not_word := by decide
  letter_word char lower := by
    have letter : (char.isUpper || char.isLower) = true := by rw [lower, Bool.or_true]
    change (((char.isUpper || char.isLower) || char.isDigit) || char == '_') = true
    rw [letter, Bool.true_or, Bool.true_or]

theorem zero_decimal : ∀ char ∈ ['0'], (alphabet.decimal char).isSome = true :=
  List.forall_mem_singleton.mpr rfl

def zero : Numeral alphabet := ⟨['0'], List.cons_ne_nil _ _, zero_decimal⟩

/-- The last zero characters of a prompt are all of it. -/
theorem last_zero_is_whole :
    ¬ ∀ (characters : Characters) (formatting : Formatting) (numeral : Numeral characters)
      (prompt : List Char) (messages : List Fields),
      Respected formatting numeral prompt messages := by
  intro always
  obtain ⟨kept, done, last⟩ :=
    (always alphabet ⟨fun _ => "", fun _ => ""⟩ zero ['h', 'i'] []).prompts .end_
  have whole : replace_prompt_variable alphabet (promptText .end_ zero) ['h', 'i'] =
      .ok ['h', 'i'] := by rfl
  rw [whole] at done
  obtain rfl := Except.ok.inj done
  have same : ['h', 'i'] = ['h', 'i'].drop (2 - zero.value) := last
  exact absurd same (by decide)

end Samples

end OpenWebui.Templates
