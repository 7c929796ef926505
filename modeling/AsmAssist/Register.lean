import AsmAssist.Run
import AsmAssist.Text.Fold
import AsmAssist.Text.WordChar

/-!
# Registers in operand text

Registers are `PC`, `SP`, `RE`, `R0` to `R7` and `R11` to `R15`, in either case, standing between word
boundaries.
-/

namespace AsmAssist.Register

/-- One character of a register's shape. -/
inductive Piece
  | letter (c : Char)
  | digit (low high : Char)

def Piece.accepts : Piece → Char → Bool
  | .letter l, c => Text.foldLetter c == l
  | .digit low high, c => low ≤ c && c ≤ high

/-- The shapes in the order in which they are tried. -/
def shapes : List (List Piece) :=
  [[.letter 'P', .letter 'C'],
    [.letter 'S', .letter 'P'],
    [.letter 'R', .letter 'E'],
    [.letter 'R', .letter '1', .digit '1' '5'],
    [.letter 'R', .digit '0' '7']]

/-- The text that a shape takes from the head of `s`, if it ends at a word boundary. -/
def take? : List Piece → Text → Option Text
  | [], [] => some []
  | [], c :: _ => if isWordChar c then none else some []
  | _ :: _, [] => none
  | p :: ps, c :: s => if p.accepts c then (take? ps s).map (c :: ·) else none

/-- The register at the head of a text. -/
def spelledAt? (s : Text) : Option Text := shapes.findSome? (take? · s)

/-- The registers of the rest of a text, from left to right. The text before ends at `column`, `inWord` tells
whether it ends in a word character, and `skip` counts the characters that belong to the last register. -/
def scan (skip : Nat) (inWord : Bool) (column : Nat) : Text → List Run
  | [] => []
  | c :: s =>
    match skip with
    | k + 1 => scan k (isWordChar c) (column + Text.unitWidth c) s
    | 0 =>
      match (if inWord == isWordChar c then none else spelledAt? (c :: s)) with
      | some name => ⟨column, name⟩ :: scan (name.length - 1) (isWordChar c) (column + Text.unitWidth c) s
      | none => scan 0 (isWordChar c) (column + Text.unitWidth c) s

/-- The registers of an operand text that starts at `anchor`. -/
def all (operands : Text) (anchor : Position) : List Token :=
  (scan 0 false 0 operands).map (Run.token anchor.line anchor.character)

end AsmAssist.Register
