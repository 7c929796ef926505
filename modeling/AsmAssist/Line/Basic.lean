import AsmAssist.Literal
import AsmAssist.Mnemonic
import AsmAssist.Operator
import AsmAssist.Register

/-!
# Source lines

A line has the shape `[label[:]] [mnemonic [operands]] [; comment]` or `name operator value [; comment]`.
Each kind of line carries only the parts that make sense for it.
-/

namespace AsmAssist

structure Assignment where
  name : Token
  /-- The operator as written. -/
  operator : Token
  kind : Operator
  value : Token
  deriving DecidableEq, Repr

structure Instruction where
  /-- The mnemonic as written, its condition included. -/
  mnemonic : Token
  operands : Option Token
  jump : Bool
  deriving DecidableEq, Repr

namespace Line

inductive Kind
  /-- Blank lines, and text that is nothing else. -/
  | other
  | comment
  | assignment (a : Assignment)
  /-- A mnemonic, possibly after a label without colon. -/
  | instruction (label : Option Token) (i : Instruction)
  /-- A label with its colon, possibly before an instruction. -/
  | label (label : Token) (i : Option Instruction)
  deriving DecidableEq, Repr

end Line

structure Line where
  raw : Text
  number : Nat
  kind : Line.Kind
  comment : Option Token
  deriving DecidableEq, Repr

namespace Line

def span (l : Line) : Span := .onLine l.number 0 (Text.columns l.raw)

/-- No visible characters. -/
def isBlank (l : Line) : Bool := Text.isAllBlank l.raw

def isLabel (l : Line) : Bool :=
  match l.kind with
  | .label .. => true
  | _ => false

/-- The label, with or without colon. -/
def label? (l : Line) : Option Token :=
  match l.kind with
  | .label label _ => some label
  | .instruction label _ => label
  | _ => none

def instruction? (l : Line) : Option Instruction :=
  match l.kind with
  | .label _ i => i
  | .instruction _ i => some i
  | _ => none

def mnemonic? (l : Line) : Option Token := l.instruction?.map Instruction.mnemonic

def operands? (l : Line) : Option Token := l.instruction?.bind Instruction.operands

def isJump (l : Line) : Bool := l.instruction?.any Instruction.jump

def assignment? (l : Line) : Option Assignment :=
  match l.kind with
  | .assignment a => some a
  | _ => none

/-- The registers among the operands. -/
def registers (l : Line) : List Token :=
  match l.operands? with
  | some operands => Register.all operands.text operands.span.start
  | none => []

end Line

end AsmAssist
