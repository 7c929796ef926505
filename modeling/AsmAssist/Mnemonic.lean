import AsmAssist.Text.Units

/-!
# Mnemonics

A mnemonic is a whole blank-delimited token: a known name, and possibly a condition such as `.Z` or `.NC`.
The search looks for the leftmost occurrence of every name and keeps the one that starts first.
-/

namespace AsmAssist.Mnemonic

def names : List Text :=
  ["ORIG", "OPT", "ADD", "ADDC", "AND", "BR", "CALL", "CLC", "CMC", "CMP", "COM", "DEC", "DSI", "ENI",
    "INC", "INT", "JAL", "JMP", "LOAD", "MOV", "MVI", "MVIH", "MVIL", "NEG", "NOP", "OR", "ROL", "ROLC",
    "ROR", "RORC", "RTI", "SHL", "SHLA", "SHR", "SHRA", "STC", "STOR", "SUB", "SUBB", "TEST",
    "XOR"].map String.toList

/-- The names that redirect control flow. -/
def jumps : List Text := ["CALL", "JMP", "BR"].map String.toList

/-- A mnemonic without its condition. -/
def base (text : Text) : Text := text.takeWhile (· != '.')

def isJump (text : Text) : Bool := jumps.contains (base text)

structure Occurrence where
  name : Text
  before : Text
  text : Text
  deriving DecidableEq, Repr

namespace Occurrence

/-- Byte offset of the first character. -/
def start (o : Occurrence) : Nat := Text.bytes o.before

def size (o : Occurrence) : Nat := Text.bytes o.text

def stop (o : Occurrence) : Nat := o.start + o.size

/-- Starts first, or at the same place and is at least as long. -/
def precedes (o p : Occurrence) : Bool := o.start < p.start || o.start == p.start && p.size ≤ o.size

end Occurrence

def endsToken (rest : Text) : Bool :=
  match rest with
  | [] => true
  | c :: _ => isBlank c

/-- The spelling of `name` at the head of a text: the name, with a condition if one follows, up to the end
of the token. -/
def spelledAt? (name s : Text) : Option Text :=
  if name.isPrefixOf s then
    let rest := s.drop name.length
    if endsToken rest then some name
    else match rest with
      | '.' :: tail =>
        let condition := tail.takeWhile Char.isAlpha
        if condition ≠ [] && endsToken (tail.drop condition.length) then some (name ++ '.' :: condition)
        else none
      | _ => none
  else none

/-- The occurrence in a text that has one more character in front. -/
def Occurrence.push (c : Char) (o : Occurrence) : Occurrence := { o with before := c :: o.before }

/-- The leftmost occurrence of `name`; `fresh` tells whether a token may start at the head of the text. -/
def leftmostFrom (name : Text) (fresh : Bool) : Text → Option Occurrence
  | [] => none
  | c :: s =>
    match (if fresh then spelledAt? name (c :: s) else none) with
    | some text => some ⟨name, [], text⟩
    | none => (leftmostFrom name (isBlank c) s).map (Occurrence.push c)

def leftmost? (s name : Text) : Option Occurrence := leftmostFrom name true s

/-- Keeps the occurrence held so far unless the next one is better. -/
def better (held : Option Occurrence) (next : Occurrence) : Option Occurrence :=
  match held with
  | none => some next
  | some o => if o.precedes next then some o else some next

/-- The mnemonic that starts first in a text. -/
def find? (s : Text) : Option Occurrence := (names.filterMap (leftmost? s)).foldl better none

end AsmAssist.Mnemonic
