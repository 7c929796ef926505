import AsmAssist.Index
import AsmAssist.Proofs.Assignment
import AsmAssist.Proofs.NameTable
import AsmAssist.Proofs.Reading

/-!
# What a line defines

A line with a label and its colon defines the label, and an assignment defines a name. The texts of a
definition depend on the body of the line alone, and the tables of an index hold the names of all of them.
-/

namespace AsmAssist

open Text

inductive Entry
  | label (name : Text)
  /-- A name, its operator and its value. -/
  | assignment (meaning : Text × Operator × Text)
  deriving DecidableEq, Repr

namespace Entry

def label? : Entry → Option Text
  | .label name => some name
  | .assignment _ => none

def assignment? : Entry → Option (Text × Operator × Text)
  | .label _ => none
  | .assignment meaning => some meaning

end Entry

namespace Line

def defines? (l : Line) : Option Entry :=
  match l.kind with
  | .label label _ => some (.label label.text)
  | .assignment a => some (.assignment a.meaning)
  | _ => none

theorem labelName?_eq (l : Line) : l.labelName? = l.defines?.bind Entry.label? := by
  cases hk : l.kind <;> simp [labelName?, defines?, hk, Entry.label?]

theorem meaning_eq (l : Line) :
    l.assignment?.map Assignment.meaning = l.defines?.bind Entry.assignment? := by
  cases hk : l.kind <;> simp [assignment?, defines?, hk, Entry.assignment?]

theorem assignedName?_eq (l : Line) :
    l.assignedName? = (l.assignment?.map Assignment.meaning).map Prod.fst := by
  rw [Option.map_map]
  rfl

end Line

/-! ## The tables of an index -/

namespace Index

def entries (index : Index) : List Entry := index.lines.filterMap Line.defines?

/-- The texts of the labels with colon, in the order of their lines. -/
def labelNames (index : Index) : List Text := index.lines.filterMap Line.labelName?

/-- Names, operators and values of the assignments, in the order of their lines. -/
def meanings (index : Index) : List (Text × Operator × Text) :=
  index.lines.filterMap fun l => l.assignment?.map Assignment.meaning

theorem labelNames_eq (index : Index) : index.labelNames = index.entries.filterMap Entry.label? := by
  rw [labelNames, entries, List.filterMap_filterMap]
  exact congrArg (fun f => index.lines.filterMap f) (funext Line.labelName?_eq)

theorem meanings_eq (index : Index) : index.meanings = index.entries.filterMap Entry.assignment? := by
  rw [meanings, entries, List.filterMap_filterMap]
  exact congrArg (fun f => index.lines.filterMap f) (funext Line.meaning_eq)

theorem getElem?_labels (index : Index) (name : Text) : index.labels[name]? = index.label? name :=
  NameTable.getElem?_resolve index.labelTable index.lines name

theorem getElem?_assignments (index : Index) (name : Text) :
    index.assignments[name]? = index.assignment? name :=
  NameTable.getElem?_resolve index.assignmentTable index.lines name

theorem mem_labels_iff (lines : List Line) (cancelled : Bool) (name : Text) :
    name ∈ (ofLines lines cancelled).labels ↔ name ∈ (ofLines lines cancelled).labelNames :=
  NameTable.mem_resolve_iff Line.labelName? lines name

theorem mem_assignments_iff (lines : List Line) (cancelled : Bool) (name : Text) :
    name ∈ (ofLines lines cancelled).assignments ↔
      name ∈ (ofLines lines cancelled).meanings.map Prod.fst := by
  rw [meanings, List.map_filterMap, ← funext Line.assignedName?_eq]
  exact NameTable.mem_resolve_iff Line.assignedName? lines name

end Index

/-! ## The definition of a body -/

namespace Reading

open Line (classify)

/-- What a body defines, whose first word is a margin token or not. -/
def bodyDefines? (margined : Bool) (body : Text) : Option Entry :=
  match Assignment.meaning? (code body) with
  | some meaning => some (.assignment meaning)
  | none => (colonText? body (bodyParts? margined body)).map fun before => .label (trimEnd before)

theorem bodyDefines?_comment (margined : Bool) (s : Text) :
    bodyDefines? margined (commentMark :: s) = none := by
  have hnone : Assignment.meaning? [] = none := rfl
  simp [bodyDefines?, code_comment, hnone, colonText?_comment]

theorem defines?_blank {raw : Text} (h : isAllBlank raw = true) (number : Nat) :
    (classify raw number).defines? = none := by
  rw [classify_blank h]
  rfl

theorem defines?_classify {w s : Text} (hw : isAllBlank w = true) (hs : OpensVisible s) (number : Nat) :
    (classify (w ++ s) number).defines? = bodyDefines? (isMargined w s) s := by
  rcases comment_or_code hs with ⟨t, rfl⟩ | hcode
  · rw [classify_comment hw, bodyDefines?_comment]
    rfl
  · have hmeaning := Assignment.read?_meaning (w ++ code s) number
    rw [Assignment.meaning?_blank_append hw] at hmeaning
    rw [classify_code hw hcode, bodyDefines?, ← hmeaning]
    cases hr : Assignment.read? (w ++ code s) number with
    | some a => simp [Line.defines?, Line.codeKind, hr]
    | none =>
      simp only [Line.defines?, Line.codeKind, hr, statementKind_eq hw hcode, Option.map_none]
      cases colonText? s (bodyParts? (isMargined w s) s) with
      | some before => rfl
      | none => cases bodyParts? (isMargined w s) s <;> rfl

/-- A line defines the same wherever it stands. -/
theorem defines?_number (raw : Text) (number : Nat) :
    (classify raw number).defines? = (classify raw 0).defines? := by
  rcases visible_cases raw with hb | ⟨w, s, rfl, hw, hs⟩
  · rw [defines?_blank hb, defines?_blank hb]
  · rw [defines?_classify hw hs, defines?_classify hw hs]

end Reading

end AsmAssist
