import OpenWebui.KnowledgeFs.Resolve

/-! A command line is parted at its pipes by a reader that knows quotes and no escapes, and its
segments are read by one that knows both: when the two agree. -/

namespace OpenWebui.KnowledgeFs

section Reading

def Lexing.next (escapes : Bool) : Lexing → Char → Lexing
  | .blank, char =>
    if shellSpace char then .blank
    else if escapes = true ∧ char = '\\' then .escaped none
    else if isQuote char then .quoted char
    else .word
  | .word, char =>
    if shellSpace char then .blank
    else if isQuote char then .quoted char
    else if escapes = true ∧ char = '\\' then .escaped none
    else .word
  | .quoted quote, char =>
    if char = quote then .word
    else if escapes = true ∧ char = '\\' ∧ quote = '"' then .escaped (some quote)
    else .quoted quote
  | .escaped none, _ => .word
  | .escaped (some quote), _ => .quoted quote

def Lexing.outside : Lexing → Bool
  | .blank | .word => true
  | _ => false

def Lexing.escaping : Lexing → Bool
  | .escaped _ => true
  | _ => false

def lexed (escapes : Bool) (text : List Char) : Lexing := text.foldl (Lexing.next escapes) .blank

/-- The flags `in_single` and `in_double` after one more character. -/
def toggle (flags : Bool × Bool) (ch : Char) : Bool × Bool :=
  if ch = '\'' ∧ flags.2 = false then (!flags.1, flags.2)
  else if ch = '"' ∧ flags.1 = false then (flags.1, !flags.2)
  else flags

def endsSegment (before : List Char) : Bool := decide (before.foldl toggle (false, false) = (false, false))

def pieces {σ : Type} (next : σ → Char → σ) (ends : σ → Bool) : σ → List Char → List Char → List (List Char)
  | _, buf, [] => [buf]
  | state, buf, ch :: rest =>
    if ch = '|' ∧ ends state = true then buf :: pieces next ends (next state ch) [] rest
    else pieces next ends (next state ch) (buf ++ [ch]) rest

def shellSegments (command : List Char) : List (List Char) :=
  pieces (Lexing.next true) Lexing.outside .blank [] command

/-- `shlex.split(text)`, none for a `ValueError`. -/
def shlexSplit (text : List Char) : Option (List String) :=
  (shellWords .blank [] false text).map (fun words => words.map String.ofList)

/-- The command is split where a shell would split it. -/
structure SplitsLikeShell (command : List Char) : Prop where
  pipes : ∀ before after, command = before ++ '|' :: after →
    endsSegment before = (lexed true before).outside
  tokens : (parse_pipeline (String.ofList command)).map some =
    ((shellSegments command).filter (fun seg => !Text.blank seg)).map shlexSplit

/-- Nothing but unescaped white space of the shell is stripped from the segment. -/
def StripsSpace (seg : List Char) : Prop :=
  ∃ front back, seg = front ++ Text.strip seg ++ back ∧ front.all shellSpace = true ∧
    back.all shellSpace = true ∧ (lexed true (Text.strip seg)).escaping = false

/-- Escapes make no difference to the pipes, and stripping none to the segments. -/
structure ReadsAlike (command : List Char) : Prop where
  pipes : ∀ before after, command = before ++ '|' :: after →
    (lexed false before).outside = (lexed true before).outside
  strips : ∀ seg ∈ shellSegments command, Text.blank seg = false → StripsSpace seg

/-- No quote and no pipe is escaped. -/
def EscapesNone (command : List Char) : Prop :=
  ∀ before char after, command = before ++ char :: after → (lexed true before).escaping = true →
    isQuote char = false ∧ char ≠ '|'

end Reading

theorem outside_cases {lexing : Lexing} (outside : lexing.outside = true) :
    lexing = .blank ∨ lexing = .word := by
  cases lexing with
  | blank => exact .inl rfl
  | word => exact .inr rfl
  | quoted => cases outside
  | escaped => cases outside

theorem lexed_append (escapes : Bool) (first second : List Char) :
    lexed escapes (first ++ second) = second.foldl (Lexing.next escapes) (lexed escapes first) := by
  rw [lexed, List.foldl_append, ← lexed]

section Toggles

def Lexing.flags : Lexing → Bool × Bool
  | .quoted quote => (decide (quote = '\''), decide (quote = '"'))
  | _ => (false, false)

def Lexing.plain : Lexing → Bool
  | .quoted quote => isQuote quote
  | .escaped _ => false
  | _ => true

theorem plain_next {lexing : Lexing} (plain : lexing.plain = true) (ch : Char) :
    (lexing.next false ch).plain = true ∧ (lexing.next false ch).flags = toggle lexing.flags ch := by
  cases lexing with
  | escaped quote => cases plain
  | quoted quote =>
    have kind : quote = '\'' ∨ quote = '"' := of_decide_eq_true plain
    by_cases same : ch = quote
    · rcases kind with rfl | rfl <;> subst same <;> exact ⟨rfl, rfl⟩
    · have stays : (Lexing.quoted quote).next false ch = .quoted quote := by simp [Lexing.next, same]
      rw [stays]
      refine ⟨plain, ?_⟩
      rcases kind with rfl | rfl <;> simp [toggle, Lexing.flags, same]
  | _ =>
    by_cases single : ch = '\''
    · subst single
      exact ⟨rfl, rfl⟩
    · by_cases double : ch = '"'
      · subst double
        exact ⟨rfl, rfl⟩
      · by_cases space : shellSpace ch = true <;>
          simp [Lexing.next, toggle, Lexing.flags, Lexing.plain, isQuote, single, double, space]

theorem plain_lexed (text : List Char) :
    (lexed false text).plain = true ∧ (lexed false text).flags = text.foldl toggle (false, false) := by
  induction text using List.reverseRecOn with
  | nil => exact ⟨rfl, rfl⟩
  | append_singleton text ch ih =>
    have step := plain_next ih.1 ch
    rw [lexed_append, List.foldl_append, ← ih.2]
    exact step

theorem endsSegment_eq (before : List Char) : endsSegment before = (lexed false before).outside := by
  obtain ⟨plain, flags⟩ := plain_lexed before
  rw [endsSegment, ← flags]
  generalize lexed false before = lexing at plain ⊢
  cases lexing with
  | escaped quote => cases plain
  | quoted quote =>
    rcases of_decide_eq_true plain with rfl | rfl <;> rfl
  | _ => rfl

/-- Where the reader without escapes is, and that with them: escapes change nothing of what is quoted. -/
inductive SameQuotes : Lexing → Lexing → Prop
  | free {plain escaped : Lexing} (outside : plain.outside = true)
      (free : escaped.outside = true ∨ escaped = .escaped none) : SameQuotes plain escaped
  | inside {quote : Char} {escaped : Lexing} (opens : isQuote quote = true)
      (inside : escaped = .quoted quote ∨ escaped = .escaped (some quote)) :
      SameQuotes (.quoted quote) escaped

theorem next_quote {lexing : Lexing} (outside : lexing.outside = true) {ch : Char}
    (quote : isQuote ch = true) (escapes : Bool) : lexing.next escapes ch = .quoted ch := by
  rcases outside_cases outside with rfl | rfl <;>
    rcases of_decide_eq_true quote with rfl | rfl <;> cases escapes <;> rfl

theorem next_free {lexing : Lexing} (outside : lexing.outside = true) {ch : Char}
    (quote : isQuote ch = false) (escapes : Bool) :
    (lexing.next escapes ch).outside = true ∨
      escapes = true ∧ ch = '\\' ∧ lexing.next escapes ch = .escaped none := by
  rcases outside_cases outside with rfl | rfl
  all_goals
    by_cases space : shellSpace ch = true
    · exact .inl (by simp [Lexing.next, space, Lexing.outside])
    · by_cases escape : escapes = true ∧ ch = '\\'
      · obtain ⟨rfl, rfl⟩ := escape
        exact .inr ⟨rfl, rfl, rfl⟩
      · exact .inl (by simp [Lexing.next, space, quote, escape, Lexing.outside])

theorem sameQuotes_next {plain escaped : Lexing} (same : SameQuotes plain escaped) {ch : Char}
    (visible : escaped.escaping = true → isQuote ch = false) :
    SameQuotes (plain.next false ch) (escaped.next true ch) := by
  have free : ∀ {plain : Lexing}, plain.outside = true → isQuote ch = false →
      (plain.next false ch).outside = true := by
    intro plain outside quote
    exact (next_free outside quote false).resolve_right fun escape => Bool.false_ne_true escape.1
  rcases same with ⟨outside, outside' | rfl⟩ | ⟨opens, rfl | rfl⟩
  · cases quote : isQuote ch with
    | true =>
      rw [next_quote outside quote, next_quote outside' quote]
      exact .inside quote (.inl rfl)
    | false => exact .free (free outside quote) ((next_free outside' quote true).imp_right (·.2.2))
  · exact .free (free outside (visible rfl)) (.inl rfl)
  · rename_i quote
    by_cases closes : ch = quote
    · subst closes
      exact .free (by simp [Lexing.next, Lexing.outside]) (.inl (by simp [Lexing.next, Lexing.outside]))
    · have stays : (Lexing.quoted quote).next false ch = .quoted quote := by simp [Lexing.next, closes]
      rw [stays]
      refine .inside opens ?_
      by_cases escape : ch = '\\' ∧ quote = '"' <;> simp [Lexing.next, closes, escape]
  · rename_i quote
    have other : ch ≠ quote := fun same => by rw [same, opens] at visible; cases visible rfl
    have stays : (Lexing.quoted quote).next false ch = .quoted quote := by simp [Lexing.next, other]
    rw [stays]
    exact .inside opens (.inl rfl)

theorem pipes_of_escapesNone {command : List Char} (none_escaped : EscapesNone command)
    {before after : List Char} (split : command = before ++ '|' :: after) :
    (lexed false before).outside = (lexed true before).outside := by
  have same : ∀ {before after}, command = before ++ after →
      SameQuotes (lexed false before) (lexed true before) := by
    intro before
    induction before using List.reverseRecOn with
    | nil => exact fun _ => .free rfl (.inl rfl)
    | append_singleton before ch ih =>
      intro after split
      rw [List.append_assoc] at split
      rw [lexed_append, lexed_append]
      exact sameQuotes_next (ih split) fun escaping => (none_escaped before ch after split escaping).1
  have reached := same split
  have visible := none_escaped before '|' after split
  generalize lexed true before = escaped at reached visible ⊢
  generalize lexed false before = plain at reached ⊢
  rcases reached with ⟨outside, outside' | rfl⟩ | ⟨opens, rfl | rfl⟩
  · rw [outside, outside']
  · exact absurd rfl (visible rfl).2
  · rfl
  · rfl

end Toggles

section Pieces

theorem splitPipes_eq (in_single in_double : Bool) (buf rest : List Char) :
    splitPipes in_single in_double buf rest =
      pieces toggle (fun flags => decide (flags = (false, false))) (in_single, in_double) buf rest := by
  induction rest generalizing in_single in_double buf with
  | nil => rfl
  | cons ch rest ih =>
    by_cases single : ch = '\''
    · subst single
      cases in_double <;> simp [splitPipes, pieces, toggle, ih]
    · by_cases double : ch = '"'
      · subst double
        cases in_single <;> simp [splitPipes, pieces, toggle, ih]
      · by_cases pipe : ch = '|' ∧ in_single = false ∧ in_double = false
        · obtain ⟨rfl, rfl, rfl⟩ := pipe
          simp [splitPipes, pieces, toggle, ih]
        · simp [splitPipes, pieces, toggle, single, double, pipe, ih]

theorem pieces_congr {σ τ : Type} {next : σ → Char → σ} {ends : σ → Bool} {next' : τ → Char → τ}
    {ends' : τ → Bool} {state : σ} {state' : τ} {rest : List Char}
    (same : ∀ before after, rest = before ++ '|' :: after →
      ends (before.foldl next state) = ends' (before.foldl next' state')) (buf : List Char) :
    pieces next ends state buf rest = pieces next' ends' state' buf rest := by
  induction rest generalizing state state' buf with
  | nil => rfl
  | cons ch rest ih =>
    have later : ∀ before after, rest = before ++ '|' :: after →
        ends (before.foldl next (next state ch)) = ends' (before.foldl next' (next' state' ch)) :=
      fun before after split => same (ch :: before) after (by rw [split]; rfl)
    rw [pieces, pieces, ih later, ih later]
    by_cases pipe : ch = '|'
    · have now := same [] rest (by rw [pipe]; rfl)
      simp only [List.foldl_nil] at now
      rw [now]
    · simp [pipe]

theorem splitPipes_of_pipes {command : List Char}
    (pipes : ∀ before after, command = before ++ '|' :: after →
      endsSegment before = (lexed true before).outside) :
    splitPipes false false [] command = shellSegments command := by
  rw [splitPipes_eq, shellSegments]
  exact pieces_congr pipes []

theorem next_outside {lexing : Lexing} (outside : lexing.outside = true) (ch : Char) :
    lexing.next true ch = Lexing.word.next true ch := by
  rcases outside_cases outside with rfl | rfl
  · by_cases quote : isQuote ch = true
    · rw [next_quote rfl quote, next_quote rfl quote]
    · simp [Lexing.next, quote]
  · rfl

/-- The reader is at the same place, but for a word that is begun or not. -/
def Alike (lexing other : Lexing) : Prop :=
  lexing = other ∨ lexing.outside = true ∧ other.outside = true

theorem Alike.next {lexing other : Lexing} (alike : Alike lexing other) (ch : Char) :
    Alike (lexing.next true ch) (other.next true ch) := by
  rcases alike with rfl | ⟨first, second⟩
  · exact .inl rfl
  · exact .inl ((next_outside first ch).trans (next_outside second ch).symm)

theorem Alike.outside {lexing other : Lexing} (alike : Alike lexing other) :
    lexing.outside = other.outside := by
  rcases alike with rfl | ⟨first, second⟩
  · rfl
  · rw [first, second]

theorem pieces_balanced {lexing : Lexing} {buf rest : List Char} (alike : Alike (lexed true buf) lexing)
    (balanced : (rest.foldl (Lexing.next true) lexing).outside = true) :
    ∀ seg ∈ pieces (Lexing.next true) Lexing.outside lexing buf rest, (lexed true seg).outside = true := by
  induction rest generalizing lexing buf with
  | nil =>
    intro seg member
    obtain rfl := List.mem_singleton.mp member
    exact alike.outside.trans balanced
  | cons ch rest ih =>
    intro seg member
    rw [pieces] at member
    split at member
    · rename_i pipe
      obtain ⟨rfl, outside⟩ := pipe
      rcases List.mem_cons.mp member with rfl | member
      · exact alike.outside.trans outside
      · refine ih ?_ balanced seg member
        exact .inr ⟨rfl, by rw [next_outside outside]; rfl⟩
    · refine ih ?_ balanced seg member
      rw [lexed_append]
      exact alike.next ch

end Pieces

section Tokens

theorem isSome_shellWords (lexing : Lexing) (token : List Char) (quoted : Bool) (text : List Char) :
    (shellWords lexing token quoted text).isSome = (text.foldl (Lexing.next true) lexing).outside := by
  fun_induction shellWords lexing token quoted text <;> grind [Lexing.next, Lexing.outside]

def Lexing.adds : Lexing → Char → List Char
  | .blank, char | .word, char =>
    if shellSpace char = true ∨ isQuote char = true ∨ char = '\\' then [] else [char]
  | .quoted quote, char => if char = quote ∨ char = '\\' ∧ quote = '"' then [] else [char]
  | .escaped none, char => [char]
  | .escaped (some quote), char => if char ≠ '\\' ∧ char ≠ quote then ['\\', char] else [char]

def written (lexing : Lexing) : List Char → List Char
  | [] => []
  | char :: rest => lexing.adds char ++ written (lexing.next true char) rest

theorem written_append (lexing : Lexing) (first second : List Char) :
    written lexing (first ++ second) =
      written lexing first ++ written (first.foldl (Lexing.next true) lexing) second := by
  induction first generalizing lexing with
  | nil => rfl
  | cons char rest ih => simp [written, ih]

theorem flatten_emit (token : List Char) (quoted : Bool) (tokens : List (List Char)) :
    (emit token quoted tokens).flatten = token ++ tokens.flatten := by
  unfold emit
  split
  · rename_i none
    simp [none.1]
  · rfl

theorem flatten_shellWords {lexing : Lexing} {token : List Char} {quoted : Bool} {text : List Char}
    {words : List (List Char)} (fresh : lexing = .blank → token = [])
    (read : shellWords lexing token quoted text = some words) :
    words.flatten = token ++ written lexing text := by
  fun_induction shellWords lexing token quoted text generalizing words <;>
    grind [written, Lexing.adds, Lexing.next, flatten_emit, Option.map_eq_some_iff]

theorem emit_ne_nil {token : List Char} {quoted : Bool} (begun : token ≠ [] ∨ quoted = true)
    (tokens : List (List Char)) : emit token quoted tokens ≠ [] := by
  unfold emit
  grind

theorem shellWords_ne_nil {lexing : Lexing} {token : List Char} {quoted : Bool} {text : List Char}
    (begun : lexing = .word → token ≠ [] ∨ quoted = true) (inside : lexing ≠ .blank) :
    shellWords lexing token quoted text ≠ some [] := by
  fun_induction shellWords lexing token quoted text <;>
    grind [emit_ne_nil, Option.map_eq_some_iff, List.append_eq_nil_iff]

theorem wordsFrom_ne_nil {word : List Char} (begun : word ≠ []) (text : List Char) :
    wordsFrom word text ≠ [] := by
  induction text generalizing word with
  | nil => simp [wordsFrom, begun]
  | cons char rest ih =>
    rw [wordsFrom]
    split
    · simp
    · exact ih (by simp)

theorem visible_wordsFrom {word : List Char} (visible : ∀ char ∈ word, Text.isSpace char = false)
    (text : List Char) : ∀ char ∈ (wordsFrom word text).flatten, Text.isSpace char = false := by
  induction text generalizing word with
  | nil =>
    intro char member
    rw [wordsFrom] at member
    split at member
    · cases member
    · exact visible char (by simpa using member)
  | cons first rest ih =>
    intro char member
    rw [wordsFrom] at member
    split at member
    · split at member
      · exact ih (by simp) char member
      · rw [List.flatten_cons, List.mem_append] at member
        exact member.elim (visible char) (ih (by simp) char)
    · rename_i shown
      refine ih (fun other among => ?_) char member
      rcases List.mem_append.mp among with among | among
      · exact visible other among
      · rw [List.mem_singleton.mp among]
        simpa using shown

theorem shellWords_front {front : List Char} (space : front.all shellSpace = true) (rest : List Char) :
    shellWords .blank [] false (front ++ rest) = shellWords .blank [] false rest := by
  induction front with
  | nil => rfl
  | cons char front ih =>
    obtain ⟨white, others⟩ := Bool.and_eq_true_iff.mp space
    rw [List.cons_append, shellWords, if_pos white, ih others]

theorem shellWords_back {lexing : Lexing} {token : List Char} {quoted : Bool} {text back : List Char}
    (space : back.all shellSpace = true)
    (outside : (text.foldl (Lexing.next true) lexing).outside = true) :
    shellWords lexing token quoted (text ++ back) = shellWords lexing token quoted text := by
  have alone : ∀ token quoted, shellWords .blank token quoted back = some [] := by
    intro token quoted
    have whole := shellWords_front space []
    rw [List.append_nil] at whole
    cases back with
    | nil => rfl
    | cons char rest => simpa [shellWords] using whole
  have ended : ∀ token quoted, shellWords .word token quoted back = some (emit token quoted []) := by
    intro token quoted
    cases back with
    | nil => rfl
    | cons char rest =>
      obtain ⟨white, others⟩ := Bool.and_eq_true_iff.mp space
      have whole := shellWords_front others []
      rw [List.append_nil] at whole
      simp [shellWords, white, whole]
  fun_induction shellWords lexing token quoted text <;>
    grind [shellWords, Lexing.next, Lexing.outside]

end Tokens

section Segments

theorem white_plain {ch : Char} (white : Text.isSpace ch = true) : isQuote ch = false ∧ ch ≠ '\\' := by
  refine ⟨?_, fun same => by rw [same] at white; cases white⟩
  by_contra quote
  rcases of_decide_eq_true (Bool.of_not_eq_false quote) with rfl | rfl <;> cases white

theorem white_of_shellSpace {ch : Char} (space : shellSpace ch = true) : Text.isSpace ch = true := by
  rcases of_decide_eq_true space with rfl | rfl | rfl | rfl <;> rfl

theorem Alike.foldl {lexing other : Lexing} (alike : Alike lexing other) (text : List Char) :
    Alike (text.foldl (Lexing.next true) lexing) (text.foldl (Lexing.next true) other) := by
  induction text generalizing lexing other with
  | nil => exact alike
  | cons ch rest ih => exact ih (alike.next ch)

theorem Alike.written {lexing other : Lexing} (alike : Alike lexing other) (text : List Char) :
    written lexing text = written other text := by
  induction text generalizing lexing other with
  | nil => rfl
  | cons ch rest ih =>
    have adds : lexing.adds ch = other.adds ch := by
      rcases alike with rfl | ⟨first, second⟩
      · rfl
      · rcases outside_cases first with rfl | rfl <;> rcases outside_cases second with rfl | rfl <;> rfl
    rw [OpenWebui.KnowledgeFs.written, OpenWebui.KnowledgeFs.written, adds, ih (alike.next ch)]

theorem outside_white {lexing : Lexing} (outside : lexing.outside = true) {gap : List Char}
    (white : Text.blank gap = true) : (gap.foldl (Lexing.next true) lexing).outside = true := by
  induction gap generalizing lexing with
  | nil => exact outside
  | cons ch rest ih =>
    obtain ⟨first, others⟩ := Bool.and_eq_true_iff.mp white
    have plain := white_plain first
    exact ih ((next_free outside plain.1 true).resolve_right fun escape => plain.2 escape.2.1) others

theorem space_of_written {lexing : Lexing} (outside : lexing.outside = true) {gap : List Char}
    (white : Text.blank gap = true) (nothing : written lexing gap = []) : gap.all shellSpace = true := by
  induction gap generalizing lexing with
  | nil => rfl
  | cons ch rest ih =>
    obtain ⟨first, others⟩ := Bool.and_eq_true_iff.mp white
    have plain := white_plain first
    rw [written, List.append_eq_nil_iff] at nothing
    have space : shellSpace ch = true := by
      by_contra other
      have adds : lexing.adds ch = [ch] := by
        rcases outside_cases outside with rfl | rfl <;> simp [Lexing.adds, other, plain]
      rw [adds] at nothing
      cases nothing.1
    rw [List.all_cons, space, Bool.true_and]
    exact ih ((next_free outside plain.1 true).resolve_right fun escape => plain.2 escape.2.1) others
      nothing.2

def Lexing.sane : Lexing → Bool
  | .quoted quote | .escaped (some quote) => isQuote quote
  | _ => true

theorem sane_lexed (text : List Char) : (lexed true text).sane = true := by
  induction text using List.reverseRecOn with
  | nil => rfl
  | append_singleton text ch ih =>
    rw [lexed_append]
    generalize lexed true text = lexing at ih ⊢
    rcases lexing with _ | _ | quote | (_ | quote) <;> grind [Lexing.sane, Lexing.next]

theorem quoted_white {quote : Char} (opens : isQuote quote = true) {gap : List Char}
    (white : Text.blank gap = true) : gap.foldl (Lexing.next true) (.quoted quote) = .quoted quote := by
  induction gap with
  | nil => rfl
  | cons ch rest ih =>
    obtain ⟨first, others⟩ := Bool.and_eq_true_iff.mp white
    obtain ⟨plain, no_escape⟩ := white_plain first
    have other : ch ≠ quote := fun same => by rw [same, opens] at plain; cases plain
    have stays : (Lexing.quoted quote).next true ch = .quoted quote := by
      simp [Lexing.next, other, no_escape]
    rw [List.foldl_cons, stays, ih others]

theorem strip_cases (text : List Char) :
    ∃ front back, text = front ++ Text.strip text ++ back ∧ Text.blank front = true ∧
      Text.blank back = true ∧ ∀ first ∈ (Text.strip text).head?, Text.isSpace first = false := by
  obtain ⟨front, split, white, visible⟩ := Text.lstrip_cases text
  obtain ⟨back, turned, white_back, _⟩ := Text.lstrip_cases (Text.lstrip text).reverse
  have rest : Text.lstrip text = Text.strip text ++ back.reverse := by
    have both := congrArg List.reverse turned
    rw [List.reverse_reverse, List.reverse_append] at both
    exact both
  refine ⟨front, back.reverse, ?_, white, (Text.blank_reverse back).trans white_back, fun first head => ?_⟩
  · rw [List.append_assoc, ← rest]
    exact split
  · refine visible first ?_
    rw [rest]
    exact List.mem_head?_append_of_mem_head? head

theorem map_ofList_inj {words others : List (List Char)} :
    words.map String.ofList = others.map String.ofList ↔ words = others :=
  List.map_inj_right fun _ _ => String.ofList_inj.mp

section Parts

variable {seg core front back : List Char}

theorem written_parts (split : seg = front ++ core ++ back) (white : Text.blank front = true) :
    written .blank seg = written .blank front ++ (written .blank core ++ written (lexed true core) back) := by
  have alike : Alike (lexed true front) .blank := .inr ⟨outside_white rfl white, rfl⟩
  have both := (alike.foldl core).written back
  rw [split, List.append_assoc, written_append, written_append, ← lexed, alike.written, both]
  rfl

theorem outside_parts (split : seg = front ++ core ++ back) (white : Text.blank front = true)
    (balanced : (lexed true seg).outside = true) :
    (back.foldl (Lexing.next true) (lexed true core)).outside = true := by
  have alike : Alike (lexed true front) .blank := .inr ⟨outside_white rfl white, rfl⟩
  rw [split, lexed_append, lexed_append] at balanced
  exact ((alike.foldl core).foldl back).outside.symm.trans balanced

/-- Where what is left of a segment ends outside of quotes and escapes, its words are the segment's exactly
when what is stripped is the shell's white space. -/
theorem words_core_iff (split : seg = front ++ core ++ back) (white : Text.blank front = true)
    (white_back : Text.blank back = true) (outside : (lexed true core).outside = true)
    {words read : List (List Char)} (left : shellWords .blank [] false core = some words)
    (found : shellWords .blank [] false seg = some read) :
    words = read ↔ front.all shellSpace = true ∧ back.all shellSpace = true := by
  constructor
  · rintro rfl
    have total := flatten_shellWords (fun _ => rfl) found
    rw [flatten_shellWords (fun _ => rfl) left, written_parts split white] at total
    have lengths := congrArg List.length total
    simp only [List.length_append, List.length_nil] at lengths
    have front_silent := List.length_eq_zero_iff.mp (show (written .blank front).length = 0 by omega)
    have back_silent := List.length_eq_zero_iff.mp
      (show (written (lexed true core) back).length = 0 by omega)
    exact ⟨space_of_written rfl white front_silent, space_of_written outside white_back back_silent⟩
  · rintro ⟨space, space_back⟩
    rw [split, List.append_assoc, shellWords_front space, shellWords_back space_back outside, left] at found
    exact Option.some.inj found

/-- Where an escape ends what is left of a segment, the white space that is escaped belongs to a word. -/
theorem white_of_escaping (split : seg = front ++ core ++ back) (white : Text.blank front = true)
    (white_back : Text.blank back = true) (balanced : (lexed true seg).outside = true)
    (inside : (lexed true core).outside = false) {read : List (List Char)}
    (found : shellWords .blank [] false seg = some read) :
    (lexed true core).escaping = true ∧ ∃ ch ∈ read.flatten, Text.isSpace ch = true := by
  have back_outside := outside_parts split white balanced
  have total := flatten_shellWords (fun _ => rfl) found
  rw [written_parts split white, List.nil_append] at total
  have sane := sane_lexed core
  generalize lexed true core = lexing at *
  rcases lexing with _ | _ | quote | quote
  · cases inside
  · cases inside
  · rw [quoted_white sane white_back] at back_outside
    cases back_outside
  · refine ⟨rfl, ?_⟩
    cases back with
    | nil => cases back_outside
    | cons ch rest =>
      obtain ⟨first, others⟩ := Bool.and_eq_true_iff.mp white_back
      cases quote with
      | some quote =>
        change (rest.foldl (Lexing.next true) (.quoted quote)).outside = true at back_outside
        rw [quoted_white sane others] at back_outside
        cases back_outside
      | none => exact ⟨ch, by rw [total]; simp [written, Lexing.adds], first⟩

end Parts

/-- The code reads a segment as a shell does exactly when it strips nothing that counts. -/
theorem tokenize_strip_iff {seg : List Char} (balanced : (lexed true seg).outside = true) :
    some (tokenize (Text.strip seg)) = shlexSplit seg ↔ StripsSpace seg := by
  obtain ⟨front, back, split, white, white_back, _⟩ := strip_cases seg
  obtain ⟨read, found⟩ := Option.isSome_iff_exists.mp
    ((isSome_shellWords .blank [] false seg).trans balanced)
  have whole : shlexSplit seg = some (read.map String.ofList) := by rw [shlexSplit, found]; rfl
  have known := isSome_shellWords .blank [] false (Text.strip seg)
  rw [← lexed] at known
  rw [whole, Option.some_inj, tokenize, map_ofList_inj]
  by_cases outside : (lexed true (Text.strip seg)).outside = true
  · obtain ⟨words, left⟩ := Option.isSome_iff_exists.mp (known.trans outside)
    rw [left, Option.getD_some]
    constructor
    · intro same
      obtain ⟨space, space_back⟩ := (words_core_iff split white white_back outside left found).mp same
      refine ⟨front, back, split, space, space_back, ?_⟩
      rcases outside_cases outside with same | same <;> rw [same] <;> rfl
    · rintro ⟨front, back, split, space, space_back, _⟩
      have blank : ∀ {gap : List Char}, gap.all shellSpace = true → Text.blank gap = true :=
        fun space => List.all_eq_true.mpr fun ch among =>
          white_of_shellSpace (List.all_eq_true.mp space ch among)
      exact (words_core_iff split (blank space) (blank space_back) outside left found).mpr ⟨space, space_back⟩
  · have none : shellWords .blank [] false (Text.strip seg) = none := by
      rw [← Option.not_isSome_iff_eq_none, known]
      exact outside
    obtain ⟨escaping, ch, among, space⟩ :=
      white_of_escaping split white white_back balanced (Bool.not_eq_true _ ▸ outside) found
    rw [none, Option.getD_none]
    refine iff_of_false (fun same => ?_) ?_
    · rw [← same] at among
      cases space.symm.trans (visible_wordsFrom (by simp) _ ch among)
    · rintro ⟨_, _, _, _, _, free⟩
      cases escaping.symm.trans free

theorem tokenize_strip_eq_nil (seg : List Char) : tokenize (Text.strip seg) = [] ↔ Text.blank seg = true := by
  rw [← Text.strip_eq_nil]
  obtain ⟨_, _, _, _, _, visible⟩ := strip_cases seg
  cases core : Text.strip seg with
  | nil => exact iff_of_true rfl rfl
  | cons first rest =>
    refine iff_of_false (fun same => ?_) (List.cons_ne_nil _ _)
    have shown := visible first (by rw [core]; rfl)
    have no_space : ¬ shellSpace first = true := fun space => by
      cases shown.symm.trans (white_of_shellSpace space)
    rw [tokenize, List.map_eq_nil_iff] at same
    have some_word : shellWords .blank [] false (first :: rest) ≠ some [] := by
      rw [shellWords, if_neg no_space]
      split
      · exact shellWords_ne_nil (by simp) (by simp)
      · split
        · exact shellWords_ne_nil (by simp) (by simp)
        · exact shellWords_ne_nil (by simp) (by simp)
    cases read : shellWords .blank [] false (first :: rest) with
    | some words =>
      rw [read, Option.getD_some] at same
      exact some_word (read.trans (congrArg some same))
    | none =>
      rw [read, Option.getD_none, words, wordsFrom, shown] at same
      exact wordsFrom_ne_nil (by simp) rest same

theorem parse_pipeline_eq (command : List Char) :
    parse_pipeline (String.ofList command) =
      ((splitPipes false false [] command).filter (fun seg => !Text.blank seg)).map
        (fun seg => tokenize (Text.strip seg)) := by
  rw [parse_pipeline, String.toList_ofList]
  induction splitPipes false false [] command with
  | nil => rfl
  | cons seg rest ih =>
    rw [List.filterMap_cons, List.filter_cons, ih]
    cases blank : Text.blank seg with
    | true => simp [(tokenize_strip_eq_nil seg).mpr blank]
    | false =>
      have words : tokenize (Text.strip seg) ≠ [] := fun none => by
        cases blank.symm.trans ((tokenize_strip_eq_nil seg).mp none)
      simp [words]

end Segments

end OpenWebui.KnowledgeFs
