import AsmAssist.Line.Assignment
import AsmAssist.Line.Instruction

/-!
# Classifying a line

Any text is some line: what makes no sense is of kind `other`, so that an editor stays useful while a line
is being typed.
-/

namespace AsmAssist.Line

/-- The label that ends at the first colon outside literals. The colon stands after the first visible
character, inside the code, and in front of the mnemonic. -/
def colonLabel? (raw lead code : Text) (parts : Option Instruction.Parts) (number : Nat) :
    Option Token :=
  match cutAtMark labelMark false raw with
  | none => none
  | some (before, _) =>
    if lead.length < before.length && before.length < code.length &&
        parts.all fun p => before.length < lead.length + p.before.length then
      some (.after number lead (Text.trimEnd (before.drop lead.length)))
    else none

def statementKind (raw lead code : Text) (number : Nat) : Kind :=
  let parts := Instruction.parts? raw (Text.trim code)
  match colonLabel? raw lead code parts number, parts with
  | some label, parts => .label label (parts.map fun p => p.instruction number lead)
  | none, some p => .instruction (p.label? number lead) (p.instruction number lead)
  | none, none => .other

def codeKind (raw lead code : Text) (number : Nat) : Kind :=
  match Assignment.read? code number with
  | some a => .assignment a
  | none => statementKind raw lead code number

def classify (raw : Text) (number : Nat) : Line :=
  let lead := raw.takeWhile AsmAssist.isBlank
  match raw.dropWhile AsmAssist.isBlank with
  | [] => { raw, number, kind := .other, comment := none }
  | c :: body =>
    if c = commentMark then
      { raw, number, kind := .comment, comment := some (.after number lead (Text.trimEnd (c :: body))) }
    else
      match cutAtComment raw with
      | none => { raw, number, kind := codeKind raw lead raw number, comment := none }
      | some (code, comment) =>
        { raw, number, kind := codeKind raw lead code number,
          comment := some (.after number code (Text.trimEnd comment)) }

end AsmAssist.Line
