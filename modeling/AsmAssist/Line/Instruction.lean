import AsmAssist.Line.Basic

/-!
# Reading an instruction

The mnemonic is looked for in the statement up to its first quote of either kind. A token at the left margin
is a label and never a mnemonic, unless the whole line is free of blanks.
-/

namespace AsmAssist.Instruction

/-- A statement cut at its mnemonic. -/
structure Parts where
  before : Text
  mnemonic : Text
  rest : Text
  deriving DecidableEq, Repr

def isAnyQuote (c : Char) : Bool := c == quoteMark || c == '"'

/-- The token at the left margin, which the search passes over. -/
def marginToken (raw statement : Text) : Text :=
  if (raw.head?.any (!isBlank ·)) && raw.any isBlank then statement.takeWhile (!isBlank ·) else []

def parts? (raw statement : Text) : Option Parts :=
  let margin := marginToken raw statement
  let searched := (statement.drop margin.length).takeWhile (!isAnyQuote ·)
  (Mnemonic.find? searched).map fun found =>
    let before := margin ++ found.before
    { before, mnemonic := found.text, rest := statement.drop (before.length + found.text.length) }

namespace Parts

/-- The label without colon in front of the mnemonic. -/
def label? (p : Parts) (line : Nat) (lead : Text) : Option Token :=
  if p.before = [] then none else some (.after line lead (Text.trimEnd p.before))

def operands? (p : Parts) (line : Nat) (lead : Text) : Option Token :=
  let operands := Text.trim p.rest
  if operands = [] then none
  else some (.after line (lead ++ p.before ++ p.mnemonic ++ p.rest.takeWhile isBlank) operands)

/-- The instruction of a statement that `lead` stands in front of. -/
def instruction (p : Parts) (line : Nat) (lead : Text) : Instruction where
  mnemonic := .after line (lead ++ p.before) p.mnemonic
  operands := p.operands? line lead
  jump := Mnemonic.isJump p.mnemonic

end Parts

end AsmAssist.Instruction
