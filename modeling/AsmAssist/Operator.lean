import AsmAssist.Text.Fold

/-!
# Assignment operators

The keywords that give a name a meaning: a constant, a memory word, a string, a table of words.
-/

namespace AsmAssist

inductive Operator
  | equ
  | word
  | str
  | tab
  deriving DecidableEq, Repr

namespace Operator

def all : List Operator := [.equ, .word, .str, .tab]

def keyword : Operator → Text
  | .equ => "EQU".toList
  | .word => "WORD".toList
  | .str => "STR".toList
  | .tab => "TAB".toList

/-- The operator that a text spells, up to the case of ASCII letters. -/
def ofText? (s : Text) : Option Operator := all.find? fun op => Text.eqAsciiCase op.keyword s

/-- Whether a text spells a keyword under simple case folding, which also lets in the long s. -/
def isKeyword (s : Text) : Bool := all.any fun op => Text.foldsTo s op.keyword

structure Unknown where
  text : Text
  deriving DecidableEq, Repr

def Unknown.message (e : Unknown) : String := "unknown assignment operator: " ++ String.ofList e.text

def read (s : Text) : Except Unknown Operator :=
  match ofText? s with
  | some op => .ok op
  | none => .error ⟨s⟩

end Operator

end AsmAssist
