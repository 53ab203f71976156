import OpenWebui.Base.Runs
import OpenWebui.TagOutput.Positions

/-! The remembered positions of the tag handler beside the same handler without them: when both
find the same tags after the same deltas. -/

namespace OpenWebui.TagOutput

open Text Search

section Invariant

variable (tags : ContentType → List Tag)

/-- What an item has been scanned for up to a length has not been found there. -/
def Item.Scanned (item : Item) (content_type : ContentType) (scanned_length : Nat) : Prop :=
  if item.type = .message then ScannedStart (tags content_type) scanned_length item.text
  else ScannedEnd item.end_tag scanned_length item.text

/-- The ids are new, and the positions of the last item are right. -/
structure Sound (state : State) : Prop where
  items : ∀ item ∈ state.output, ∀ id, item.id = some id → id < state.next_id
  keys : ∀ id content_type scanned_length,
    state.tag_scan_positions.get? (id, content_type) = some scanned_length → id < state.next_id
  last : ∀ item earlier, state.output = item :: earlier → ∀ id, item.id = some id →
    ∀ content_type scanned_length,
      state.tag_scan_positions.get? (id, content_type) = some scanned_length →
        item.Scanned tags content_type scanned_length

/-- The states of both handlers; only one of them remembers. -/
structure Beside (memo plain : State) : Prop where
  output : memo.output = plain.output
  next_id : memo.next_id = plain.next_id
  sound : Sound tags memo

variable {tags} {state memo plain : State} {item : Item} {earlier : List Item}
  {content_type : ContentType}

theorem scanned_zero (item : Item) (content_type : ContentType) :
    item.Scanned tags content_type 0 := by
  unfold Item.Scanned
  split
  · exact ⟨Nat.zero_le _, fun some => absurd rfl some⟩
  · exact ⟨Nat.zero_le _, fun some => absurd rfl some⟩

theorem Sound.scanned (sound : Sound tags state) (last : state.output = item :: earlier)
    (content_type : ContentType) :
    item.Scanned tags content_type (state.get_scanned_length content_type item) := by
  unfold State.get_scanned_length
  split
  · exact scanned_zero item content_type
  · rename_i id named
    cases known : state.tag_scan_positions.get? (id, content_type) with
    | none =>
      simp only [Option.getD_none, ite_self]
      exact scanned_zero item content_type
    | some scanned_length =>
      simp only [Option.getD_some]
      split
      · exact sound.last item earlier last id named content_type scanned_length known
      · exact scanned_zero item content_type

theorem Sound.push (sound : Sound tags state) {new : Item} {old : List Item}
    {positions : Dict (Nat × ContentType) Nat} (named : new.id = some state.next_id)
    (known : ∀ item ∈ old, ∀ id, item.id = some id → id < state.next_id)
    (fewer : ∀ key scanned_length, positions.get? key = some scanned_length →
      state.tag_scan_positions.get? key = some scanned_length) :
    Sound tags ⟨new :: old, positions, state.next_id + 1⟩ where
  items := by
    intro item member id own
    rcases List.mem_cons.mp member with rfl | before
    · rw [named] at own
      cases own
      exact Nat.lt_succ_self _
    · exact Nat.lt_succ_of_lt (known item before id own)
  keys := by
    intro id content_type scanned_length found
    exact Nat.lt_succ_of_lt (sound.keys id content_type scanned_length (fewer _ _ found))
  last := by
    intro item earlier last id own content_type scanned_length found
    cases last
    rw [named] at own
    cases own
    have below := sound.keys _ content_type scanned_length (fewer _ _ found)
    exact absurd below (Nat.lt_irrefl _)

theorem clear_fewer (state : State) (content_type : ContentType) (item : Item)
    (key : Nat × ContentType) (scanned_length : Nat)
    (found : (state.clear_scanned_length content_type item).tag_scan_positions.get? key =
      some scanned_length) : state.tag_scan_positions.get? key = some scanned_length := by
  unfold State.clear_scanned_length at found
  split at found
  · exact found
  · rw [Dict.get?_erase] at found
    split at found
    · cases found
    · exact found

theorem Sound.known (sound : Sound tags state) (last : state.output = item :: earlier)
    {changed : Item} (sameId : changed.id = item.id) (goes : Bool) :
    ∀ old ∈ (if goes = true then earlier else changed :: earlier), ∀ id, old.id = some id →
      id < state.next_id := by
  have before := sound.items
  rw [last] at before
  intro old member id own
  split at member
  · exact before old (List.mem_cons_of_mem item member) id own
  · rcases List.mem_cons.mp member with rfl | outside
    · rw [sameId] at own
      exact before item List.mem_cons_self id own
    · exact before old (List.mem_cons_of_mem item outside) id own

theorem Sound.open_tag (sound : Sound tags state) (last : state.output = item :: earlier)
    (word : Char → Bool) (content_type : ContentType) (tag : Tag) (found : Found) :
    Sound tags (state.open_tag word content_type item earlier tag found) := by
  apply sound.push rfl _ (clear_fewer state content_type item)
  apply sound.known last
  rfl

theorem Sound.close_tag (sound : Sound tags state) (last : state.output = item :: earlier)
    (content_type : ContentType) : Sound tags (state.close_tag content_type item earlier) := by
  apply sound.push rfl _ (clear_fewer state content_type item)
  apply sound.known last
  rfl

theorem Sound.save (sound : Sound tags state) (last : state.output = item :: earlier)
    (scanned : item.Scanned tags content_type item.text.length) :
    Sound tags (state.save_scanned_length content_type item) := by
  unfold State.save_scanned_length
  split
  · exact sound
  · rename_i id named
    have below : id < state.next_id :=
      sound.items item (by rw [last]; exact List.mem_cons_self) id named
    refine ⟨sound.items, ?_, ?_⟩
    · intro other type scanned_length found
      rw [Dict.get?_set] at found
      split at found
      · rename_i same
        cases same
        exact below
      · exact sound.keys other type scanned_length found
    · intro head rest same other own type scanned_length found
      rw [last] at same
      cases same
      rw [Dict.get?_set] at found
      split at found
      · rename_i key
        cases key
        cases found
        exact scanned
      · exact sound.last item earlier last other own type scanned_length found

theorem Item.Scanned.append {scanned_length : Nat}
    (scanned : item.Scanned tags content_type scanned_length) (value : List Char) :
    { item with text := item.text ++ value }.Scanned tags content_type scanned_length := by
  have longer : item.text.length ≤ (item.text ++ value).length := by
    rw [List.length_append]
    exact Nat.le_add_right _ _
  unfold Item.Scanned at scanned ⊢
  split
  · rename_i message
    rw [if_pos message] at scanned
    refine ⟨scanned.1.trans longer, ?_⟩
    rw [List.take_append_of_le_length scanned.1]
    exact scanned.2
  · rename_i other
    rw [if_neg other] at scanned
    refine ⟨scanned.1.trans longer, ?_⟩
    rw [List.take_append_of_le_length scanned.1]
    exact scanned.2

theorem Sound.append (sound : Sound tags state) (value : List Char) :
    Sound tags (state.append value) := by
  unfold State.append
  split
  · apply sound.push rfl _ (fun _ _ found => found)
    intro old member
    cases member
  · rename_i item earlier last
    split
    · refine ⟨?_, sound.keys, ?_⟩
      · exact @Sound.known tags state item earlier sound last
          { item with text := item.text ++ value } rfl false
      · intro head rest same id own content_type scanned_length found
        cases same
        have scanned := sound.last item earlier last id own content_type scanned_length found
        exact scanned.append value
    · apply sound.push rfl _ (fun _ _ found => found)
      apply sound.known last _ false
      unfold Item.complete_reasoning
      split <;> rfl

end Invariant

section Calls

variable {tags : ContentType → List Tag} {memo plain : State} {item : Item} {earlier : List Item}
  {content_type : ContentType}

theorem save_output (state : State) (content_type : ContentType) (item : Item) :
    (state.save_scanned_length content_type item).output = state.output ∧
      (state.save_scanned_length content_type item).next_id = state.next_id := by
  unfold State.save_scanned_length
  split
  · exact ⟨rfl, rfl⟩
  · exact ⟨rfl, rfl⟩

theorem Beside.open_tag (beside : Beside tags memo plain) (last : memo.output = item :: earlier)
    (word : Char → Bool) (content_type : ContentType) (tag : Tag) (found : Found) :
    Beside tags (memo.open_tag word content_type item earlier tag found)
      (plain.open_tag word content_type item earlier tag found) where
  output := by
    rw [State.open_tag, State.open_tag, beside.next_id]
  next_id := congrArg (· + 1) beside.next_id
  sound := beside.sound.open_tag last word content_type tag found

theorem Beside.close_tag (beside : Beside tags memo plain) (last : memo.output = item :: earlier)
    (content_type : ContentType) :
    Beside tags (memo.close_tag content_type item earlier)
      (plain.close_tag content_type item earlier) where
  output := by
    rw [State.close_tag, State.close_tag, beside.next_id]
  next_id := congrArg (· + 1) beside.next_id
  sound := beside.sound.close_tag last content_type

theorem Beside.save (beside : Beside tags memo plain) (last : memo.output = item :: earlier)
    (scanned : item.Scanned tags content_type item.text.length) :
    Beside tags (memo.save_scanned_length content_type item)
      (plain.save_scanned_length content_type item) where
  output := by
    rw [(save_output memo content_type item).1, (save_output plain content_type item).1,
      beside.output]
  next_id := by
    rw [(save_output memo content_type item).2, (save_output plain content_type item).2,
      beside.next_id]
  sound := beside.sound.save last scanned

theorem Beside.append (beside : Beside tags memo plain) (value : List Char) :
    Beside tags (memo.append value) (plain.append value) where
  output := by
    unfold State.append
    rw [beside.output, beside.next_id]
    split
    · rfl
    · split <;> rfl
  next_id := by
    unfold State.append
    rw [beside.output, beside.next_id]
    split
    · rfl
    · split <;> rfl
  sound := beside.sound.append value

variable (tags) in
/-- Both calls find the same tags and leave the same output. -/
structure Agree (memo plain : Handled) : Prop where
  finds : memo.finds = plain.finds
  results : (memo.result = none ∧ plain.result = none) ∨
    ∃ left right end_flag, memo.result = some (left, end_flag) ∧
      plain.result = some (right, end_flag) ∧ Beside tags left right

/-- The last item is a message, of which a scan overlooks the first start tag. -/
def State.Overlooks (state : State) (tags : ContentType → List Tag) (content_type : ContentType) :
    Prop :=
  ∃ item earlier, state.output = item :: earlier ∧ item.type = .message ∧
    Overlooked (tags content_type) (state.get_scanned_length content_type item) item.text

theorem scannedStart_whole {tags : List Tag} {text : List Char}
    (nowhere : find_start_tag tags 0 text = none) : ScannedStart tags text.length text := by
  refine ⟨Nat.le_refl _, fun _ => ?_⟩
  rw [List.take_length]
  exact nowhere

theorem scannedEnd_whole {end_tag text : List Char}
    (nowhere : find_end_tag end_tag 0 text = none) : ScannedEnd end_tag text.length text := by
  refine ⟨Nat.le_refl _, fun _ => ?_⟩
  rw [List.take_length]
  exact nowhere

theorem handleBlock_agrees (beside : Beside tags memo plain)
    (last : memo.output = item :: earlier) (other : item.type ≠ .message) :
    Agree tags (handleBlock true content_type memo item earlier)
      (handleBlock false content_type plain item earlier) := by
  have scanned := beside.sound.scanned last content_type
  rw [Item.Scanned, if_neg other] at scanned
  have later := find_end_tag_later scanned
  have ends : memo.endOf true content_type item = end_tag_search_start item.end_tag
      (memo.get_scanned_length content_type item) := if_pos rfl
  have front : plain.endOf false content_type item = 0 := rfl
  rw [handleBlock, handleBlock, ends, front, later]
  cases found : find_end_tag item.end_tag 0 item.text with
  | none =>
    refine ⟨rfl, Or.inr ⟨_, _, false, rfl, rfl, beside.save last ?_⟩⟩
    rw [Item.Scanned, if_neg other]
    exact scannedEnd_whole found
  | some position =>
    exact ⟨rfl, Or.inr ⟨_, _, true, rfl, rfl, beside.close_tag last content_type⟩⟩

theorem opened_not_overlooked (sound : Sound tags memo) (earlier : List Item)
    (word : Char → Bool) {tag : Tag} {found : Found}
    (whole : find_start_tag (tags content_type) 0 item.text = some (tag, found))
    (seen : ¬ Overlooked (tags content_type) (memo.get_scanned_length content_type item) item.text)
    (filled : found.after_tag.isEmpty ≠ true) :
    ¬ (memo.open_tag word content_type item earlier tag found).Overlooks tags content_type := by
  rintro ⟨head, rest, same, -, other, later, -, missed⟩
  obtain ⟨_, here⟩ := find_start_tag_some whole
  obtain ⟨text, parts, front, -⟩ := leftmost_eq_some here
  have whole_filled : item.text ≠ [] := by
    rintro empty
    obtain ⟨matched, split, -⟩ := reads_startTag tag.1 _ _ _ front
    rw [empty] at parts
    rw [(List.append_eq_nil_iff.mp parts.symm).2] at split
    rw [(List.append_eq_nil_iff.mp split.symm).2] at filled
    exact filled rfl
  cases same
  have fresh : (memo.open_tag word content_type item earlier tag found).get_scanned_length
      content_type (openedItem word content_type memo.next_id tag found) = 0 := by
    have unknown : (memo.open_tag word content_type item earlier tag found).tag_scan_positions.get?
        (memo.next_id, content_type) = none := by
      cases known : (memo.open_tag word content_type item earlier tag
          found).tag_scan_positions.get? (memo.next_id, content_type) with
      | none => rfl
      | some scanned_length =>
        have below := sound.keys _ _ _ (clear_fewer memo content_type item _ _ known)
        exact absurd below (Nat.lt_irrefl _)
    simp only [State.get_scanned_length, openedItem, unknown, Option.getD_none, ite_self]
  rw [fresh] at missed
  rcases missed with ⟨short, -⟩ | ⟨-, cut⟩
  · exact seen ⟨tag, found, whole, Or.inl ⟨short, whole_filled⟩⟩
  · simp at cut

theorem handler_agrees (word : Char → Bool) (beside : Beside tags memo plain)
    (seen : ¬ memo.Overlooks tags content_type) :
    Agree tags (tag_output_handler true word content_type (tags content_type) memo)
      (tag_output_handler false word content_type (tags content_type) plain) := by
  generalize measure : memo.lastText.length = size
  induction size using Nat.strong_induction_on generalizing memo plain with
  | _ size ih =>
    cases last : memo.output with
    | nil =>
      have plainLast : plain.output = [] := beside.output ▸ last
      rw [handler_nil last, handler_nil plainLast]
      exact ⟨rfl, Or.inr ⟨_, _, false, rfl, rfl, beside⟩⟩
    | cons item earlier =>
      have plainLast : plain.output = item :: earlier := beside.output ▸ last
      by_cases message : item.type = .message
      · have scanned := beside.sound.scanned last content_type
        rw [Item.Scanned, if_pos message] at scanned
        have looked : ¬ Overlooked (tags content_type)
            (memo.get_scanned_length content_type item) item.text :=
          fun missed => seen ⟨item, earlier, last, message, missed⟩
        have same := (find_start_tag_iff scanned).mpr looked
        have start : memo.startOf true content_type (tags content_type) item =
            search_start (tags content_type) (memo.get_scanned_length content_type item)
              item.text := if_pos rfl
        have front : plain.startOf false content_type (tags content_type) item = 0 := rfl
        rw [← start] at same
        cases whole : find_start_tag (tags content_type) 0 item.text with
        | none =>
          rw [handler_none last message (same.trans whole),
            handler_none plainLast message (by rw [front]; exact whole)]
          refine ⟨rfl, Or.inr ⟨_, _, false, rfl, rfl, beside.save last ?_⟩⟩
          rw [Item.Scanned, if_pos message]
          exact scannedStart_whole whole
        | some pair =>
          obtain ⟨tag, found⟩ := pair
          rw [handler_some last message (same.trans whole),
            handler_some plainLast message (by rw [front]; exact whole)]
          have opened := beside.open_tag last word content_type tag found
          split
          · exact ⟨rfl, Or.inr ⟨_, _, false, rfl, rfl, opened⟩⟩
          · rename_i filled
            split
            · rename_i shorter
              have text : memo.lastText = item.text := by
                rw [State.lastText, last]
                rfl
              have agree := ih found.after_tag.length (by rw [← measure, text]; exact shorter)
                opened (opened_not_overlooked beside.sound earlier word whole looked filled) rfl
              exact ⟨congrArg (List.cons _) agree.finds, agree.results⟩
            · exact ⟨rfl, Or.inl ⟨rfl, rfl⟩⟩
      · rw [handler_other last message, handler_other plainLast message]
        split
        · exact handleBlock_agrees beside last message
        · exact ⟨rfl, Or.inr ⟨_, _, false, rfl, rfl, beside⟩⟩

theorem handler_some_head {on : Bool} {word : Char → Bool} {list : List Tag} {state : State}
    (last : state.output = item :: earlier) (message : item.type = .message) {tag : Tag}
    {found : Found}
    (here : find_start_tag list (state.startOf on content_type list item) item.text =
      some (tag, found)) :
    (tag_output_handler on word content_type list state).finds.head? =
      some (.start_tag tag found.before_tag.length) := by
  rw [handler_some last message here]
  split
  · rfl
  · split <;> rfl

theorem overlooks_differs (word : Char → Bool) (beside : Beside tags memo plain)
    (missed : memo.Overlooks tags content_type) :
    (tag_output_handler true word content_type (tags content_type) memo).finds ≠
      (tag_output_handler false word content_type (tags content_type) plain).finds := by
  obtain ⟨item, earlier, last, message, tag, found, whole, cut⟩ := missed
  have plainLast : plain.output = item :: earlier := beside.output ▸ last
  have scanned := beside.sound.scanned last content_type
  rw [Item.Scanned, if_pos message] at scanned
  have behind := (not_reached_iff scanned whole).mpr cut
  have start : memo.startOf true content_type (tags content_type) item =
      search_start (tags content_type) (memo.get_scanned_length content_type item) item.text :=
    if_pos rfl
  have front := @handler_some_head item earlier content_type false word (tags content_type) plain
    plainLast message tag found whole
  intro same
  rw [← same] at front
  cases later : find_start_tag (tags content_type)
      (memo.startOf true content_type (tags content_type) item) item.text with
  | none =>
    rw [handler_none last message later] at front
    cases front
  | some pair =>
    obtain ⟨other, further⟩ := pair
    rw [handler_some_head last message later] at front
    obtain ⟨_, _, here⟩ := List.exists_of_findSome?_eq_some later
    obtain ⟨_, reached, equal⟩ := Option.map_eq_some_iff.mp here
    cases equal
    have place : further.before_tag.length = found.before_tag.length :=
      (Find.start_tag.inj (Option.some.inj front)).2
    have bound := search_reaches reached
    rw [start] at bound
    omega

end Calls

section Runs

variable (word : Char → Bool) (tags : ContentType → List Tag)

/-- What an event overlooks; only calls of the handler look for tags. -/
def State.OverlooksAt (state : State) (tags : ContentType → List Tag) : Event → Prop
  | .append _ => False
  | .handle content_type => state.Overlooks tags content_type

variable {tags} {memo plain : State}

theorem step_agrees (beside : Beside tags memo plain) {event : Event}
    (seen : ¬ memo.OverlooksAt tags event) :
    Agree tags (step true word tags memo event) (step false word tags plain event) := by
  cases event with
  | append value => exact ⟨rfl, Or.inr ⟨_, _, false, rfl, rfl, beside.append value⟩⟩
  | handle content_type => exact handler_agrees word beside seen

theorem step_differs (beside : Beside tags memo plain) {event : Event}
    (missed : memo.OverlooksAt tags event) :
    (step true word tags memo event).finds ≠ (step false word tags plain event).finds := by
  cases event with
  | append value => exact missed.elim
  | handle content_type => exact overlooks_differs word beside missed

theorem Agree.seen {left right : Handled} (agree : Agree tags left right) :
    left.seen = right.seen := by
  rw [Handled.seen, Handled.seen, agree.finds]
  rcases agree.results with ⟨none, nothing⟩ | ⟨first, second, end_flag, some, other, beside⟩
  · rw [none, nothing]
  · rw [some, other]
    simp only [Option.map_some, beside.output]

/-- The runs with and without the memo have come to states beside each other, or both to none. -/
def Together (start : State) (earlier : List Event) : Prop :=
  (after true word tags start earlier = none ∧ after false word tags start earlier = none) ∨
    ∃ memo plain, after true word tags start earlier = some memo ∧
      after false word tags start earlier = some plain ∧ Beside tags memo plain

theorem after_append (on : Bool) (start : State) (earlier : List Event) (event : Event) :
    after on word tags start (earlier ++ [event]) =
      (after on word tags start earlier).bind
        (fun state => (step on word tags state event).result.map Prod.fst) := by
  rw [after, List.foldlM_append]
  change (after on word tags start earlier).bind _ = _
  congr 1
  funext state
  simp

theorem begin_sound (output : List Item) : Sound tags (begin output) where
  items := by
    intro item member id own
    have bounded : ∀ {items : List Item}, item ∈ items →
        id < (items.map (fun item => item.id.getD 0 + 1)).foldr max 0 := by
      intro items listed
      induction items with
      | nil => cases listed
      | cons first rest ih =>
        rw [List.map_cons, List.foldr_cons]
        rcases List.mem_cons.mp listed with rfl | later
        · rw [own, Option.getD_some]
          omega
        · have below := ih later
          omega
    exact bounded member
  keys := by
    intro id content_type scanned_length found
    cases found
  last := by
    intro item earlier _ id _ content_type scanned_length found
    cases found

/-- The handler with its memo finds the same tags at the same places after the same deltas, and
leaves the same output, as the handler that searches every text from the front, exactly in the runs
in which no call overlooks the first start tag of a message. -/
theorem memo_agrees_iff (tags : ContentType → List Tag) (output : List Item)
    (events : List Event) :
    Runs.Always (fun earlier event =>
        seen true word tags (begin output) earlier event =
          seen false word tags (begin output) earlier event) events ↔
      Runs.Always (fun earlier event => ∀ state,
        after true word tags (begin output) earlier = some state →
          ¬ state.OverlooksAt tags event) events := by
  symm
  apply @Runs.always_iff_of_invariant Event _ _
    (fun earlier => @Together word tags (begin output) earlier)
  · exact Or.inr ⟨_, _, rfl, rfl, rfl, rfl, begin_sound output⟩
  · rintro earlier event (⟨none, nothing⟩ | ⟨memo, plain, some, other, beside⟩)
    · constructor
      · intro _
        rw [seen, seen, none, nothing]
        rfl
      · intro _ state reached
        rw [none] at reached
        cases reached
    · constructor
      · intro good
        rw [seen, seen, some, other, Option.map_some, Option.map_some,
          (step_agrees word beside (good memo some)).seen]
      · intro same state reached missed
        rw [some] at reached
        cases reached
        rw [seen, seen, some, other, Option.map_some, Option.map_some] at same
        exact step_differs word beside missed (congrArg Prod.snd (Option.some.inj same))
  · rintro earlier event (⟨none, nothing⟩ | ⟨memo, plain, some, other, beside⟩) good
    · left
      rw [after_append, after_append, none, nothing]
      exact ⟨rfl, rfl⟩
    · have agree := step_agrees word beside (good memo some)
      rw [Together, after_append, after_append, some, other, Option.bind_some, Option.bind_some]
      rcases agree.results with ⟨none, nothing⟩ | ⟨left, right, end_flag, first, second, next⟩
      · left
        rw [none, nothing]
        exact ⟨rfl, rfl⟩
      · right
        rw [first, second]
        exact ⟨left, right, rfl, rfl, next⟩

end Runs

def thinkTags : ContentType → List Tag
  | .reasoning => [("<think>".toList, "</think>".toList)]
  | _ => []

def cutTag : List Event :=
  [.append "<think\n".toList, .handle .reasoning, .append ">".toList, .handle .reasoning]

/-- Searched from the front, the text holds the start tag after the second delta. -/
theorem cutTag_differs : ¬ Runs.Always (fun earlier event =>
    seen true Char.isAlphanum thinkTags (begin []) earlier event =
      seen false Char.isAlphanum thinkTags (begin []) earlier event) cutTag := by
  intro always
  have same := always (cutTag.take 3) (.handle .reasoning) [] rfl
  have finds := congrArg (Option.map Prod.snd) same
  revert finds
  decide +kernel

end OpenWebui.TagOutput
