import OpenWebui.Folders.Shared

/-! The owners of the folders below a folder, in the tables that requests leave behind: a move is
never checked against the owner of its target. -/

namespace OpenWebui.Folders

/-- A move that is carried out does not put a folder under one of another user. -/
def MovesHome (ilike : String → String → Bool) (db : FolderDatabase) : Request → Prop
  | .move user_id id parent_id answers =>
    (update_folder_parent_id_by_id ilike db user_id id parent_id answers).toOption.isSome = true →
      ∀ parent above, parent_id = some parent → db.folder.get? parent = some above →
        above.user_id = user_id
  | _ => True

section Owned

variable {ilike : String → String → Bool} {fuel : Nat} {db : FolderDatabase}

theorem ownedAlike_insert (alike : OwnedAlike db.folder) {id : GeneratedId}
    (unnamed : ∀ other row, db.folder.get? other = some row → row.parent_id ≠ some id.1)
    {owner : String} {form_data : FolderForm} (apart : form_data.parent_id ≠ some id.1)
    (below : ∀ parent above, form_data.parent_id = some parent → db.folder.get? parent = some above →
      owner = above.user_id) : OwnedAlike (insert_new_folder db id owner form_data).folder := by
  intro child row parent above found named there
  rw [insert_new_folder, Dict.get?_set] at found there
  by_cases new : id.1 = child
  · rw [if_pos new] at found
    obtain rfl := Option.some.inj found
    rw [if_neg (by rintro rfl; exact apart named)] at there
    exact below parent above named there
  · rw [if_neg new] at found
    rw [if_neg (by rintro rfl; exact unnamed child row found named)] at there
    exact alike child row parent above found named there

theorem ownedAlike_setParent_iff (alike : OwnedAlike db.folder) {id : String} {row : Folder}
    (stored : db.folder.get? id = some row) (parent_id : Option String) :
    OwnedAlike (setParent db id parent_id).folder ↔ ∀ parent above, parent_id = some parent →
      db.folder.get? parent = some above → above.user_id = row.user_id := by
  have found : ∀ other, ((setParent db id parent_id).folder.get? other).map Folder.user_id =
      (db.folder.get? other).map Folder.user_id := by
    intro other
    rw [setParent, Dict.get?_modify]
    split
    · rw [Option.map_map]
      rfl
    · rfl
  have moved : (setParent db id parent_id).folder.get? id = some { row with parent_id := parent_id } := by
    rw [setParent, Dict.get?_modify, if_pos rfl, stored, Option.map_some]
  constructor
  · intro after parent above named there
    have kept := found parent
    rw [there] at kept
    obtain ⟨target, there', same⟩ := Option.map_eq_some_iff.mp kept
    rw [← same]
    exact (after id _ parent target moved named there').symm
  · intro home child other parent above there named there'
    have kept := found parent
    rw [there'] at kept
    obtain ⟨old, before, same⟩ := Option.map_eq_some_iff.mp kept.symm
    rw [← same]
    rcases Dict.get?_modify_cases there with ⟨rfl, own, own_before, rfl⟩ | ⟨_, own_before⟩
    · obtain rfl := Option.some.inj (stored.symm.trans own_before)
      exact (home parent old named before).symm
    · exact alike child other parent old own_before named before

theorem apply_ownedAlike_iff (alike : OwnedAlike db.folder) {request : Request}
    (new : Generated db request) :
    OwnedAlike (apply ilike fuel db request).folder ↔ MovesHome ilike db request := by
  cases done : handle ilike fuel db request with
  | error failure =>
    rw [apply_of_error done]
    refine iff_of_true alike ?_
    cases request with
    | move user_id id parent_id answers =>
      rw [handle] at done
      rw [MovesHome, done]
      nofun
    | _ => trivial
  | ok next =>
    rw [apply_of_ok done]
    cases request with
    | create user_id role form_data id answers =>
      obtain ⟨_, unnamed, apart⟩ := new
      obtain ⟨owner, rfl, below⟩ := create_inserted done
      exact iff_of_true (ownedAlike_insert alike unnamed apart below) trivial
    | move user_id id parent_id answers =>
      rw [handle] at done
      obtain ⟨rfl, row, stored, rfl⟩ := move_moved done
      rw [ownedAlike_setParent_iff alike stored, MovesHome, done]
      exact ⟨fun home _ => home, fun home => home rfl⟩
    | delete user_id role id answers =>
      have within := delete_folder_within done
      refine iff_of_true ?_ trivial
      intro child row parent above found named there
      exact alike child row parent above (within child row found) named (within parent above there)
    | share access =>
      cases done
      exact iff_of_true alike trivial

/-- In every table of a run the folders below a folder have its owner, exactly when no move of the
run puts a folder under one of another user. -/
theorem owned_alike_iff (ilike : String → String → Bool) (fuel : Nat) (requests : List Request)
    (generated : Runs.Always (fun earlier => Generated (after ilike fuel earlier)) requests) :
    Runs.Always (fun earlier request => OwnedAlike (after ilike fuel (earlier ++ [request])).folder)
        requests ↔
      Runs.Always (fun earlier => MovesHome ilike (after ilike fuel earlier)) requests := by
  have both : (Runs.Always (fun earlier request =>
      OwnedAlike (after ilike fuel (earlier ++ [request])).folder) requests ↔
        Runs.Always (fun earlier => MovesHome ilike (after ilike fuel earlier)) requests) ∧
      (Runs.Always (fun earlier => MovesHome ilike (after ilike fuel earlier)) requests →
        OwnedAlike (after ilike fuel requests).folder) := by
    induction requests using List.reverseRecOn with
    | nil => exact ⟨iff_of_true (Runs.always_nil _) (Runs.always_nil _), fun _ => nofun⟩
    | append_singleton requests request ih =>
      obtain ⟨before, new⟩ := Runs.always_append.mp generated
      obtain ⟨same, reached⟩ := ih before
      rw [Runs.always_append, Runs.always_append, same, after_append]
      have step (home) := @apply_ownedAlike_iff ilike fuel _ (reached home) _ new
      exact ⟨and_congr_right step, fun home => (step home.1).mpr home.2⟩
  exact both.1

end Owned

theorem nestedRequests_owned_alike :
    Runs.Always (fun earlier request => OwnedAlike (after sameName 3 (earlier ++ [request])).folder)
        nestedRequests ↔
      Runs.Always (fun earlier => MovesHome sameName (after sameName 3 earlier)) nestedRequests :=
  owned_alike_iff sameName 3 nestedRequests nestedRequests_generated

end OpenWebui.Folders
