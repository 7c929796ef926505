import AsmAssist.Text.Blank

/-!
# Fields and table lines

Tables are texts of lines, and lines are texts of fields.
-/

namespace AsmAssist.Text

/-- The fields between separators, the one being read holding `current` in reverse. -/
def fieldsFrom (separator : Char) (current : Text) : Text → List Text
  | [] => [current.reverse]
  | c :: s =>
    if c = separator then current.reverse :: fieldsFrom separator [] s
    else fieldsFrom separator (c :: current) s

def fields (separator : Char) (s : Text) : List Text := fieldsFrom separator [] s

/-- The lines of a table, the one being read holding `current` in reverse. A carriage return breaks no line;
right in front of a line feed it belongs to the break. Nothing follows a last line feed. -/
def tableLinesFrom (current : Text) : Text → List Text
  | [] => if current = [] then [] else [current.reverse]
  | '\n' :: s => current.reverse :: tableLinesFrom [] s
  | '\r' :: '\n' :: s => current.reverse :: tableLinesFrom [] s
  | c :: s => tableLinesFrom (c :: current) s

def tableLines (s : Text) : List Text := tableLinesFrom [] s

end AsmAssist.Text
