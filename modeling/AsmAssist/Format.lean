import AsmAssist.Index
import AsmAssist.Line.Layout

/-!
# Formatting

Labels start at column 0 and everything else at the margin. A label that reaches the margin pushes its
instruction to a line of its own. Edits that would change nothing are left out.
-/

namespace AsmAssist.Format

structure Edit where
  span : Span
  text : Text
  deriving DecidableEq, Repr

def spaces (n : Nat) : Text := List.replicate n ' '

/-- Puts `text` under the span, unless it stands there already. -/
def replace (raw : Text) (span : Span) (text : Text) : List Edit :=
  if span.slice raw = text then [] else [⟨span, text⟩]

/-- The blanks between a label that ends at `column` of the unindented line and its instruction. -/
def labelSpacing (margin column : Nat) : Text :=
  if column < margin then spaces (margin - column) else '\n' :: spaces margin

def lineEdits (margin : Nat) (l : Line) : List Edit :=
  if l.raw = [] then []
  else if l.isBlank then [⟨l.span, []⟩]
  else
    let leading := l.layout.leading
    match l.label? with
    | none => replace l.raw leading (spaces margin)
    | some _ =>
      let gap := l.layout.labelGap
      let spacing := labelSpacing margin (gap.start.character - leading.width)
      (if l.instruction?.isSome then replace l.raw gap spacing else []) ++ replace l.raw leading []

def edits (index : Index) (margin : Nat) : List Edit := index.lines.flatMap (lineEdits margin)

end AsmAssist.Format
