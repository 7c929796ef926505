import AsmAssist.Line.Basic

/-!
# Reading an assignment

The name ends at the first blank run that an operator keyword follows, and may itself hold blanks. The
keyword is compared by simple case folding to find that place and by ASCII case to accept it, so a long s in
the keyword makes the line no assignment. Each part stands at its first occurrence after the part before it;
an empty value therefore stands right after the operator.
-/

namespace AsmAssist.Assignment

structure Parts where
  name : Text
  operator : Text
  rest : Text
  deriving DecidableEq, Repr

/-- The keyword and the text after it and its blanks. -/
def keywordAt? (s : Text) : Option (Text × Text) :=
  let keyword := s.takeWhile (!isBlank ·)
  let after := s.dropWhile (!isBlank ·)
  let rest := after.dropWhile isBlank
  if Operator.isKeyword keyword && after ≠ [] && !rest.contains '\n' then some (keyword, rest) else none

/-- The operator and its value, where a name ends at the head of `s`. -/
def operatorAt? (s : Text) : Option (Text × Text) :=
  match s with
  | [] => none
  | c :: _ => if isBlank c then keywordAt? (s.dropWhile isBlank) else none

/-- The shortest name that goes on from here; it holds no line feed. -/
def partsFrom : Text → Option Parts
  | [] => none
  | c :: s =>
    match operatorAt? (c :: s) with
    | some (operator, rest) => some ⟨[], operator, rest⟩
    | none =>
      if c = '\n' then none
      else (partsFrom s).map fun p => { p with name := c :: p.name }

/-- The parts of an assignment, its name starting at the first visible character. -/
def parts? (code : Text) : Option Parts :=
  match Text.trimStart code with
  | [] => none
  | c :: s => (partsFrom s).map fun p => { p with name := c :: p.name }

/-- The text in front of the first occurrence of `part`. -/
def before? (part : Text) : Text → Option Text
  | [] => if part = [] then some [] else none
  | c :: s => if part.isPrefixOf (c :: s) then some [] else (before? part s).map (c :: ·)

/-- Reads the code of a line, its comment cut off. -/
def read? (code : Text) (line : Nat) : Option Assignment := do
  let parts ← parts? code
  let kind ← Operator.ofText? parts.operator
  let value := Text.trim parts.rest
  let lead ← before? parts.name code
  let named := lead ++ parts.name
  let gap ← before? parts.operator (code.drop named.length)
  let operated := named ++ gap ++ parts.operator
  let space ← before? value (code.drop operated.length)
  return {
    name := .after line lead parts.name
    operator := .after line (named ++ gap) parts.operator
    kind
    value := .after line (operated ++ space) value }

end AsmAssist.Assignment
