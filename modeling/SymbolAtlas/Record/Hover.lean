import SymbolAtlas.Json.Basic

/-!
The text of a hover.  A payload is a value or an object that holds it under `contents`; the
value is one part or an array of parts, and empty parts leave no trace.
-/

namespace SymbolAtlas.Json

def fenced (language text : String) : String := "```" ++ language ++ "\n" ++ text ++ "\n```"

/-- The text of one part: a string as it is, an object through its `value` and `language`,
nothing for null, and compact JSON for everything else. -/
def partText : Json → String
  | str s => s
  | obj members =>
    let body := ((member? "value" members).bind str?).getD ""
    match (member? "language" members).bind str? with
    | some language => fenced language body
    | none => body
  | null => ""
  | v => v.text

/-- The text of a hover payload.  The parts of an array are divided by a blank line. -/
def hoverText (payload : Json) : String :=
  match (payload.get? "contents").getD payload with
  | arr parts => "\n\n".intercalate ((parts.map partText).filter fun t => !t.isEmpty)
  | v => v.partText

end SymbolAtlas.Json
