import AsmAssist.Literal
import AsmAssist.Word

/-!
# Constants

A numeral carries its radix as a suffix: `1010b`, `17o`, `0FFh`; decimal numerals have none and may be
negative. Numerals are read within 64 bits, and the machine word has 16, so a value that is not negative
and has bit 15 set reads as its two's complement.
-/

namespace AsmAssist.Constant

/-- The value of a digit in any radix up to 16. -/
def digitValue (c : Char) : Nat :=
  if c.isDigit then c.toNat - '0'.toNat else c.toUpper.toNat - 'A'.toNat + 10

def magnitude (radix : Nat) (digits : Text) : Nat :=
  digits.foldl (fun n c => n * radix + digitValue c) 0

def isBinaryDigit (c : Char) : Bool := c == '0' || c == '1'

def isOctalDigit (c : Char) : Bool := '0' ≤ c && c ≤ '7'

def isHexDigit (c : Char) : Bool := c.isDigit || 'A' ≤ c.toUpper && c.toUpper ≤ 'F'

/-- The part of a word in front of its last character, when that is `suffix` in either case. -/
def body? (suffix : Char) (word : Text) : Option Text :=
  if word.getLast?.map Char.toUpper = some suffix then some word.dropLast else none

/-- The digits of a numeral: at least one, and all of the radix. -/
def digits? (isDigit : Char → Bool) (digits : Text) : Option Text :=
  if digits ≠ [] && digits.all isDigit then some digits else none

def binary? (word : Text) : Option Int :=
  (body? 'B' word >>= digits? isBinaryDigit).map fun ds => magnitude 2 ds

def octal? (word : Text) : Option Int :=
  (body? 'O' word >>= digits? isOctalDigit).map fun ds => magnitude 8 ds

/-- Leading zeros apart, a hexadecimal numeral has at most four digits. -/
def hexadecimal? (word : Text) : Option Int :=
  (body? 'H' word >>= digits? isHexDigit).bind fun ds =>
    if (ds.dropWhile (· == '0')).length ≤ 4 then some (magnitude 16 ds) else none

def decimal? (word : Text) : Option Int :=
  match word with
  | '-' :: ds => (digits? Char.isDigit ds).map fun ds => -(magnitude 10 ds : Int)
  | ds => (digits? Char.isDigit ds).map fun ds => magnitude 10 ds

def fitsInt64 (n : Int) : Bool := -0x8000000000000000 ≤ n && n < 0x8000000000000000

/-- Reads a value that is not negative and has bit 15 set as a negative word. -/
def toSignedWord (n : Int) : Int :=
  if 0 ≤ n && n / 0x8000 % 2 = 1 then n - 0x10000 else n

def parse? (word : Text) : Option Int :=
  (binary? word <|> octal? word <|> hexadecimal? word <|> decimal? word).bind fun n =>
    if fitsInt64 n then some (toSignedWord n) else none

/-- The text in front of the next quote. -/
def literalBody? (s : Text) : Option Text :=
  if s.contains quoteMark then some (s.takeWhile (· != quoteMark)) else none

def codePoint (c : Char) : Int := c.toNat

/-- The values at a column: the characters of the literal around it, nothing if that literal is never
closed; outside literals, the numeral there. -/
def values (raw : Text) (character : Nat) : List Int :=
  match openingQuote raw character with
  | some opened =>
    ((literalBody? (raw.drop ((Text.takeColumns opened raw).length + 1))).getD []).map codePoint
  | none => ((Word.at? raw 0 character).bind fun word => parse? word.text).toList

end AsmAssist.Constant
