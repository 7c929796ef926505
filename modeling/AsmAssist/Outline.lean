import AsmAssist.Index

/-!
# Outline

The symbols that a document defines, in the order of their lines. Each covers its whole line and selects
its value, or its own name when it is a label.
-/

namespace AsmAssist.Outline

inductive Kind
  | routine
  | cell
  | constant
  | array
  deriving DecidableEq, Repr

/-- The number that editors know a kind of symbol by. -/
def Kind.code : Kind → Nat
  | .routine => 12
  | .cell => 13
  | .constant => 14
  | .array => 18

def Kind.ofOperator : Operator → Kind
  | .equ => .constant
  | .word => .cell
  | .str => .array
  | .tab => .array

structure Symbol where
  name : Text
  kind : Kind
  operator : Option Operator
  range : Span
  selection : Span
  deriving DecidableEq, Repr

def ofAssignment? (name : Text) (l : Line) : Option Symbol :=
  l.assignment?.map fun a => ⟨name, .ofOperator a.kind, some a.kind, l.span, a.value.span⟩

def ofLabel? (name : Text) (l : Line) : Option Symbol :=
  l.label?.map fun label => ⟨name, .routine, none, l.span, label.span⟩

def symbols (index : Index) : List Symbol :=
  let assignments := index.assignments.toList.filterMap fun (name, l) => ofAssignment? name l
  let labels := index.labels.toList.filterMap fun (name, l) => ofLabel? name l
  (assignments ++ labels).mergeSort fun a b => a.range.start.line ≤ b.range.start.line

end AsmAssist.Outline
