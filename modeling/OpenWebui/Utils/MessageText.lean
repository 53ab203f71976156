import OpenWebui.Base.Text
import OpenWebui.Utils.Usage

/-! The text of a message: that of its content, or of its output items. -/

namespace OpenWebui.Utils

/-- `''.join(...)` of the text parts of an output item, empty for another item. -/
def outputItemText (formatting : Formatting) (item : Json) : String :=
  match item with
  | .obj fields =>
    if getField fields "type" = .str "message" then
      match (getField fields "content").orElse (.arr []) with
      | .arr parts => String.join (parts.filterMap (fun part =>
          (part.obj?.map (fun fields => getField fields "text")).bind (fun text =>
            if text = .null then none else some (formatting.text text))))
      | _ => ""
    else ""
  | _ => ""

def get_output_text (formatting : Formatting) (output : Json) : String :=
  match output with
  | .arr items => "\n".intercalate ((items.map (outputItemText formatting)).filter
      (fun text => !Text.blank text.toList))
  | _ => ""

def firstText (items : List Json) : Option Json :=
  ((items.filterMap Json.obj?).find? (fun fields =>
    decide (getField fields "type" = .str "text"))).map (fun fields => getField fields "text")

def get_content_from_message (formatting : Formatting) (message : Fields) : Json :=
  let content := getField message "content"
  let fallback := (Json.str (get_output_text formatting (getField message "output"))).orElse
    (if content.str?.isSome then content else .null)
  match content with
  | .arr items => (firstText items).getD fallback
  | other => if other.truthy then other else fallback

end OpenWebui.Utils
