import AsmAssist.Text.Blank

/-!
# Source text

The lines of a document end at a line feed, at a carriage return, or at the two together. What follows the
last break is a line too, the way editors count lines.
-/

namespace AsmAssist.Source

/-- Splits the rest of a text, the line being read holding `current` in reverse. -/
def splitFrom (current : Text) : Text → List Text
  | [] => [current.reverse]
  | '\n' :: s => current.reverse :: splitFrom [] s
  | '\r' :: '\n' :: s => current.reverse :: splitFrom [] s
  | '\r' :: s => current.reverse :: splitFrom [] s
  | c :: s => splitFrom (c :: current) s

def lines (text : Text) : List Text := splitFrom [] text

end AsmAssist.Source
