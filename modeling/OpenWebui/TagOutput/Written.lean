import OpenWebui.TagOutput.Memo

/-! The text that the output items hold beside the text that was appended. -/

namespace OpenWebui.TagOutput

open Text Search

/-- The texts of the items, from the first to the last. -/
def State.written (state : State) : List Char := state.output.reverse.flatMap Item.text

def Event.text : Event → List Char
  | .append value => value
  | .handle _ => []

section Written

variable {memo : Bool} {word : Char → Bool} {content_type : ContentType} {tags : List Tag}
  {state left : State} {end_flag : Bool} {item : Item} {earlier : List Item}

theorem written_of_last (last : state.output = item :: earlier) :
    state.written = earlier.reverse.flatMap Item.text ++ item.text := by
  simp [State.written, last]

theorem strip_sublist (text : List Char) : (strip text).Sublist text := by
  have back := List.reverse_sublist.mpr ((lstrip text).reverse.dropWhile_sublist isSpace)
  rw [List.reverse_reverse] at back
  exact back.trans (List.dropWhile_sublist _)

theorem removeTags_sublist (start_tag : List Char) (taken : Nat) (text : List Char) :
    (removeTags start_tag taken text).Sublist text := by
  fun_induction removeTags start_tag taken text with
  | case1 => exact List.Sublist.refl _
  | case2 taken char rest ih => exact ih.cons _
  | case3 char rest _ _ _ ih => exact ih.cons _
  | case4 char rest _ ih => exact ih.cons_cons _

theorem splitBlock_sublist (item : Item) :
    ((splitBlock item).1 ++ (splitBlock item).2).Sublist item.text := by
  have stripped : (strip (remove item.start_tag item.text)).Sublist item.text := by
    refine (strip_sublist _).trans ?_
    unfold remove
    split
    · exact List.Sublist.refl _
    · exact removeTags_sublist ..
  refine List.Sublist.trans ?_ stripped
  dsimp only [splitBlock]
  split
  · rename_i before after found
    obtain ⟨⟨_, _, _⟩, stands, same⟩ := Option.map_eq_some_iff.mp found
    cases same
    obtain ⟨rest, parts, here, -⟩ := leftmost_eq_some stands
    rw [parts, literal_eq_some.mp here]
    exact (strip_sublist _).append ((strip_sublist _).trans (List.sublist_append_right _ _))
  · rw [List.append_nil]
    exact strip_sublist _

theorem find_start_tag_sublist {start : Nat} {text : List Char} {tag : Tag} {found : Found}
    (here : find_start_tag tags start text = some (tag, found)) :
    (found.before_tag ++ found.after_tag).Sublist text := by
  obtain ⟨_, _, here⟩ := List.exists_of_findSome?_eq_some here
  obtain ⟨_, searched, pair⟩ := Option.map_eq_some_iff.mp here
  cases pair
  obtain ⟨⟨before, group, after⟩, stands, rfl⟩ := Option.map_eq_some_iff.mp searched
  obtain ⟨rest, parts, front, -⟩ := leftmost_eq_some stands
  obtain ⟨matched, split, -⟩ := reads_startTag _ _ _ _ front
  have whole : text.take start ++ before ++ (matched ++ after) = text := by
    rw [List.append_assoc, ← split, ← parts, List.take_append_drop]
  have kept := (List.sublist_append_right matched after).append_left (text.take start ++ before)
  rwa [whole] at kept

/-- The last item becomes two, or only the second of them. -/
theorem written_split (last : state.output = item :: earlier) {first second : Item} {gone : Bool}
    (output : left.output = second :: (if gone then earlier else first :: earlier))
    (parts : (first.text ++ second.text).Sublist item.text) :
    left.written.Sublist state.written := by
  rw [written_of_last last, written_of_last output]
  cases gone with
  | true => exact ((List.sublist_append_right _ _).trans parts).append_left _
  | false => simpa using parts

theorem written_of_handler
    (done : (tag_output_handler memo word content_type tags state).result = some (left, end_flag)) :
    left.written.Sublist state.written := by
  have unscanned (state : State) (item : Item) :
      (state.save_scanned_length content_type item).written = state.written := by
    rw [State.written, (save_output state content_type item).1, State.written]
  generalize measure : state.lastText.length = size
  induction size using Nat.strong_induction_on generalizing state with
  | _ size ih =>
    cases last : state.output with
    | nil =>
      rw [handler_nil last] at done
      cases done
      exact List.Sublist.refl _
    | cons item earlier =>
      by_cases message : item.type = .message
      · cases here : find_start_tag tags (state.startOf memo content_type tags item) item.text with
        | none =>
          rw [handler_none last message here] at done
          cases done
          rw [unscanned]
        | some pair =>
          have opened : (state.open_tag word content_type item earlier pair.1 pair.2).written.Sublist
              state.written := written_split last rfl (find_start_tag_sublist here)
          rw [handler_some last message here] at done
          split at done
          · cases done
            exact opened
          · split at done
            · rename_i shorter
              have text : state.lastText = item.text := by
                rw [State.lastText, last]
                rfl
              exact (ih _ (by rw [← measure, text]; exact shorter) done rfl).trans opened
            · cases done
      · rw [handler_other last message, handleBlock] at done
        split at done
        · split at done
          · cases done
            exact written_split last rfl (splitBlock_sublist item)
          · cases done
            rw [unscanned]
        · cases done
          exact List.Sublist.refl _

theorem written_append (value : List Char) :
    (state.append value).written = state.written ++ value := by
  unfold State.append
  split
  · rename_i none
    simp [State.written, none, newMessage]
  · rename_i item earlier last
    have kept : item.complete_reasoning.text = item.text := by
      unfold Item.complete_reasoning
      split <;> rfl
    split
    · simp [State.written, last]
    · simp [State.written, last, newMessage, kept]

/-- The handler invents no text and moves none: what the items hold is left of what was appended, in
its order. -/
theorem no_text_invented {tags : ContentType → List Tag} {events : List Event} {start final : State}
    (ran : after memo word tags start events = some final) :
    final.written.Sublist (start.written ++ events.flatMap Event.text) := by
  induction events using List.reverseRecOn generalizing final with
  | nil =>
    cases ran
    simp
  | append_singleton earlier event ih =>
    rw [after_append, Option.bind_eq_some_iff] at ran
    obtain ⟨state, before, stepped⟩ := ran
    obtain ⟨⟨left, end_flag⟩, done, rfl⟩ := Option.map_eq_some_iff.mp stepped
    rw [List.flatMap_append, ← List.append_assoc]
    cases event with
    | append value =>
      cases done
      rw [written_append]
      simpa [Event.text] using (ih before).append_right value
    | handle content_type => simpa [Event.text] using (written_of_handler done).trans (ih before)

end Written

theorem cutTag_text : ∃ final,
    after true Char.isAlphanum thinkTags (begin []) cutTag = some final ∧
      final.written.Sublist "<think\n>".toList := by
  have runs : (after true Char.isAlphanum thinkTags (begin []) cutTag).isSome = true := by
    decide +kernel
  obtain ⟨final, ran⟩ := Option.isSome_iff_exists.mp runs
  exact ⟨final, ran, no_text_invented ran⟩

end OpenWebui.TagOutput
