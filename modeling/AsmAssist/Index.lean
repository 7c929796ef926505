import AsmAssist.Line.Classify
import AsmAssist.NameTable
import AsmAssist.Source

/-!
# Document index

The classified lines of a document and the tables of what they define. When a name is defined more than
once, the tables lead to its last definition. A scan asks a cancellation signal before each line and
stops at the first yes.
-/

namespace AsmAssist

/-- The answers of a cancellation signal, by the number of questions asked before. -/
abbrev Poll := Nat → Bool

namespace Poll

def never : Poll := fun _ => false

def always (answer : Bool) : Poll := fun _ => answer

/-- Answers no to the first `n` questions and yes to all others. -/
def afterPolls (n : Nat) : Poll := fun k => n ≤ k

/-- The items scanned before the first yes, and whether there was one. -/
def scan {α : Type} (poll : Poll) (asked : Nat) : List α → List α × Bool
  | [] => ([], false)
  | x :: xs =>
    if poll asked then ([], true)
    else
      let (scanned, cancelled) := scan poll (asked + 1) xs
      (x :: scanned, cancelled)

end Poll

namespace Line

/-- The text of a label with colon. -/
def labelName? (l : Line) : Option Text :=
  match l.kind with
  | .label label _ => some label.text
  | _ => none

def assignedName? (l : Line) : Option Text := l.assignment?.map fun a => a.name.text

end Line

structure Index where
  lines : List Line
  /-- The places in `lines` of the labels. -/
  labelTable : NameTable
  /-- The places in `lines` of the assignments. -/
  assignmentTable : NameTable
  cancelled : Bool

namespace Index

/-- The numbered lines of an inclusive range, the whole document by default. -/
def selected (source : List Text) (range : Option (Nat × Nat)) : List (Text × Nat) :=
  match range with
  | none => source.zipIdx
  | some (first, last) => ((source.drop first).take (last + 1 - first)).zipIdx first

def ofLines (lines : List Line) (cancelled : Bool) : Index where
  lines
  labelTable := .ofItems (fun l => l.labelName?.toList) lines
  assignmentTable := .ofItems (fun l => l.assignedName?.toList) lines
  cancelled

def build (source : List Text) (range : Option (Nat × Nat)) (poll : Poll) : Index :=
  let (scanned, cancelled) := poll.scan 0 (selected source range)
  ofLines (scanned.map fun (raw, number) => Line.classify raw number) cancelled

/-- The scanned line with a given number. -/
def line? (index : Index) (number : Nat) : Option Line :=
  match index.lines with
  | [] => none
  | first :: _ => if number < first.number then none else index.lines[number - first.number]?

/-- The line that defines a label. -/
def label? (index : Index) (name : Text) : Option Line := index.labelTable.item? index.lines name

/-- The line that assigns a name. -/
def assignment? (index : Index) (name : Text) : Option Line :=
  index.assignmentTable.item? index.lines name

/-- The lines that define labels, by label. -/
def labels (index : Index) : Std.TreeMap Text Line := index.labelTable.resolve index.lines

/-- The lines that assign names, by name. -/
def assignments (index : Index) : Std.TreeMap Text Line := index.assignmentTable.resolve index.lines

end Index

end AsmAssist
