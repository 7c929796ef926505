import AsmAssist.Line.Basic

/-!
# Layout

The eight regions of a line, from left to right. An absent region has no width and stands where it would
have started.
-/

namespace AsmAssist.Line

structure Layout where
  leading : Span
  label : Span
  labelGap : Span
  instruction : Span
  operandGap : Span
  operands : Span
  commentGap : Span
  comment : Span
  deriving DecidableEq, Repr

def Layout.spans (l : Layout) : List Span :=
  [l.leading, l.label, l.labelGap, l.instruction, l.operandGap, l.operands, l.commentGap, l.comment]

/-- The column after the last visible character in front of `column`, but not below `floor`. -/
def blankRunStart (raw : Text) (column floor : Nat) : Nat :=
  min (max floor (Text.columns (Text.trimEnd (Text.takeColumns column raw)))) column

/-- The indentation; a blank line has none. -/
def leadingWidth (l : Line) : Nat :=
  if l.isBlank then 0 else Text.columns (l.raw.takeWhile AsmAssist.isBlank)

/-- The blank region that ends where `next` starts and does not reach below `floor`. -/
def gapBefore (l : Line) (next : Span) (floor : Nat) : Span :=
  .onLine l.number (blankRunStart l.raw next.start.character floor) next.start.character

def labelSpan (l : Line) : Span :=
  match l.label? with
  | some label => label.span
  | none => .empty l.number l.leadingWidth

/-- The regions of the instruction after a label that ends at `column`: gap, mnemonic, gap, operands. -/
def instructionSpans (l : Line) (column : Nat) : Span × Span × Span × Span :=
  let absent := Span.empty l.number
  match l.instruction? with
  | none => (absent column, absent column, absent column, absent column)
  | some i =>
    let mnemonic := i.mnemonic.span
    let gap := l.gapBefore mnemonic column
    match i.operands with
    | some operands =>
      (gap, mnemonic, .onLine l.number mnemonic.stop.character operands.span.start.character,
        operands.span)
    | none => (gap, mnemonic, absent mnemonic.stop.character, absent mnemonic.stop.character)

/-- The regions of the comment after code that ends at `column`: gap, comment. -/
def commentSpans (l : Line) (column : Nat) : Span × Span :=
  match l.comment with
  | some comment => (l.gapBefore comment.span column, comment.span)
  | none => (.empty l.number column, .empty l.number column)

def layout (l : Line) : Layout :=
  let label := l.labelSpan
  let (labelGap, instruction, operandGap, operands) := l.instructionSpans label.stop.character
  let (commentGap, comment) := l.commentSpans operands.stop.character
  { leading := .onLine l.number 0 l.leadingWidth
    label, labelGap, instruction, operandGap, operands, commentGap, comment }

end AsmAssist.Line
