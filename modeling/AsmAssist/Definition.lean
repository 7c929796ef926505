import AsmAssist.Index
import AsmAssist.Word

/-!
# Definitions

Where the word under the cursor is defined. Labels lead to the mnemonic of their line, or to their own end
when the line has none; assigned names lead to their value. Words inside a literal lead nowhere, and neither
does a name under the cursor in its own definition.
-/

namespace AsmAssist.Definition

def onOwnLabel (l : Line) (p : Position) : Bool :=
  l.isLabel && l.label?.any fun label => label.span.touches p

def onOwnName (l : Line) (p : Position) : Bool :=
  l.assignment?.any fun a => a.name.span.touches p

def labelTarget? (l : Line) : Option Position :=
  (l.mnemonic?.map fun mnemonic => mnemonic.span.start).or (l.label?.map fun label => label.span.stop)

def assignmentTarget? (l : Line) : Option Position := l.assignment?.map fun a => a.value.span.start

/-- The target of a name used on line `l` at `p`. A label hides an assigned name. -/
def target? (index : Index) (l : Line) (p : Position) (name : Text) : Option Position :=
  match (if onOwnLabel l p then none else index.label? name) with
  | some definition => labelTarget? definition
  | none =>
    match (if onOwnName l p then none else index.assignment? name) with
    | some definition => assignmentTarget? definition
    | none => none

def find? (index : Index) (p : Position) : Option Position :=
  match index.line? p.line with
  | none => none
  | some l =>
    match openingQuote l.raw p.character with
    | some _ => none
    | none =>
      match Word.at? l.raw p.line p.character with
      | none => none
      | some word => target? index l p word.text

end AsmAssist.Definition
