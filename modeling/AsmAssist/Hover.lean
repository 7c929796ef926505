import AsmAssist.Constant
import AsmAssist.Definition
import AsmAssist.Markdown
import AsmAssist.Settings.Basic

/-!
# Hover

What an editor shows at the cursor: the definition of the word there, else the documentation of the mnemonic
or operator, else of a register among the operands, else the value of a constant.
-/

namespace AsmAssist

structure Hover where
  markdown : String
  range : Option Span
  deriving DecidableEq, Repr

namespace Hover

def definition? (index : Index) (p : Position) (settings : Settings.Hover) : Option Hover :=
  if settings.showDefinitions then
    (Definition.find? index p).bind fun target =>
      (index.line? target.line).map fun l => ⟨Markdown.definition l.raw settings.jumpHint, none⟩
  else none

/-- The mnemonic without condition, or the operator, under the cursor. -/
def keyword? (l : Line) (p : Position) : Option (Text × Span) :=
  match l.mnemonic?.filter fun mnemonic => mnemonic.span.touches p with
  | some mnemonic => some (Mnemonic.base mnemonic.text, mnemonic.span)
  | none =>
    ((l.assignment?.map Assignment.operator).filter fun operator => operator.span.touches p).map
      fun operator => (operator.text, operator.span)

def instruction? (l : Line) (p : Position) (catalog : Catalog) : Option Hover :=
  (keyword? l p).bind fun (keyword, span) =>
    (catalog.instruction? keyword).map fun e => ⟨Markdown.instruction e, some span⟩

/-- The first register under the cursor that the catalog knows. -/
def register? (l : Line) (p : Position) (catalog : Catalog) : Option Hover :=
  (l.registers.filter fun r => r.span.touches p).findSome? fun r =>
    (catalog.register? r.text).map fun e => ⟨Markdown.register e, some r.span⟩

def constant? (l : Line) (p : Position) : Option Hover :=
  match Constant.values l.raw p.character with
  | [] => none
  | values => some ⟨Markdown.constants values, none⟩

/-- What the operands or the value under the cursor show. -/
def operand? (l : Line) (p : Position) (catalog : Catalog) : Option Hover :=
  if l.operands?.any fun operands => operands.span.touches p then
    (register? l p catalog).or (constant? l p)
  else if l.assignment?.any fun a => a.value.span.touches p then
    constant? l p
  else none

def at? (index : Index) (p : Position) (catalog : Catalog) (settings : Settings.Hover) :
    Option Hover :=
  match definition? index p settings with
  | some hover => some hover
  | none =>
    (index.line? p.line).bind fun l => (instruction? l p catalog).or (operand? l p catalog)

end Hover

end AsmAssist
