import AsmAssist.Text.Units

/-!
# Character literals

Every quote character of a line opens or closes a character literal. Comment markers and label colons count
only outside literals.
-/

namespace AsmAssist

def quoteMark : Char := '\''

def commentMark : Char := ';'

def labelMark : Char := ':'

/-- Cuts a line in front of the first mark that is outside every literal; `quoted` tells whether the line
starts inside one. -/
def cutAtMark (mark : Char) (quoted : Bool) : Text → Option (Text × Text)
  | [] => none
  | c :: s =>
    if c = quoteMark then
      (cutAtMark mark (!quoted) s).map fun (before, rest) => (c :: before, rest)
    else if c = mark && !quoted then
      some ([], c :: s)
    else
      (cutAtMark mark quoted s).map fun (before, rest) => (c :: before, rest)

/-- The code in front of the comment, and the comment with its mark. -/
def cutAtComment (raw : Text) : Option (Text × Text) := cutAtMark commentMark false raw

/-- Byte offset of the comment mark. -/
def commentStart (raw : Text) : Option Nat := (cutAtComment raw).map fun (code, _) => Text.bytes code

/-- A quote opens a literal at its column, or closes the open one. -/
def toggleLiteral (opened : Option Nat) (column : Nat) : Option Nat :=
  match opened with
  | none => some column
  | some _ => none

/-- The state of the literals after the characters that start before `character`, from the state `opened`
at `column`. -/
def literalState (character : Nat) (column : Nat) (opened : Option Nat) : Text → Option Nat
  | [] => opened
  | c :: s =>
    if character ≤ column then opened
    else literalState character (column + Text.unitWidth c)
      (if c = quoteMark then toggleLiteral opened column else opened) s

/-- The column of the quote that opens the literal around `character`. A quote standing at `character`
itself does not count. -/
def openingQuote (raw : Text) (character : Nat) : Option Nat := literalState character 0 none raw

end AsmAssist
