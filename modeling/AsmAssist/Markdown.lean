import AsmAssist.Catalog.Basic

/-!
# Hover texts

Documentation, definitions and constants as Markdown.
-/

namespace AsmAssist.Markdown

/-- A code block with the defining line, and below it the hint unless that is empty. -/
def definition (raw hint : Text) : String :=
  "```p4\n" ++ String.ofList raw ++ "\n```" ++
    (if hint = [] then "" else "\n\n" ++ String.ofList hint)

def instruction (e : InstructionEntry) : String :=
  "**" ++ String.ofList e.name ++ "**" ++ (if e.pseudo then " (pseudo-instruction)" else "") ++
    ": *" ++ String.ofList e.format ++ "*" ++
    (if e.flags = [] then "" else "\n\n**Flags**: " ++ String.ofList e.flags) ++
    "\n\n" ++ String.ofList e.description

def register (e : RegisterEntry) : String :=
  "Register **" ++ String.ofList e.name ++ "**" ++
    (if e.aliases = [] then ""
      else " (" ++ String.intercalate ", " (e.aliases.map String.ofList) ++ ")") ++
    "\n\n" ++ String.ofList e.description

def decimalText (n : Int) : Text :=
  if n < 0 then '-' :: Nat.toDigits 10 n.natAbs else Nat.toDigits 10 n.natAbs

/-- The machine word of a value, as an unsigned number. -/
def wordValue (n : Int) : Nat := (n % 0x10000).toNat

def padLeft (width : Nat) (s : Text) : Text := List.replicate (width - s.length) '0' ++ s

/-- The machine word in at least four hexadecimal digits. -/
def hexText (n : Int) : Text :=
  padLeft 4 ((Nat.toDigits 16 (wordValue n)).map Char.toUpper) ++ ['h']

def binaryText (n : Int) : Text := Nat.toDigits 2 (wordValue n) ++ ['b']

/-- The character with code point `n`, controls apart. -/
def visibleChar? (n : Int) : Option Char :=
  if 0 ≤ n && decide n.toNat.isValidChar && !(n < 0x20 || 0x7F ≤ n && n < 0xA0) then
    some (Char.ofNat n.toNat)
  else none

def constant (n : Int) : String :=
  "**Dec**: " ++ String.ofList (decimalText n) ++ " | **Hex**: " ++ String.ofList (hexText n) ++
    (match visibleChar? n with
      | some c => " | **Char**: " ++ String.singleton c
      | none => "") ++
    " | **Bin**: " ++ String.ofList (binaryText n)

/-- One paragraph for each value. -/
def constants (values : List Int) : String := String.intercalate "\n\n" (values.map constant)

end AsmAssist.Markdown
