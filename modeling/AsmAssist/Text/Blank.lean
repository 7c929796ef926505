/-!
# Text and blank characters

Source text is a list of characters. Blank is the Unicode property White_Space, for every rule of the
library that speaks of spaces.
-/

namespace AsmAssist

abbrev Text := List Char

/-- The White_Space property: 25 characters, the zero-width ones not among them. -/
def isBlank (c : Char) : Bool :=
  let n := c.toNat
  (9 ≤ n && n ≤ 13) || n == 0x20 || n == 0x85 || n == 0xA0 || n == 0x1680 ||
  (0x2000 ≤ n && n ≤ 0x200A) || n == 0x2028 || n == 0x2029 || n == 0x202F || n == 0x205F ||
  n == 0x3000

namespace Text

def isAllBlank (s : Text) : Bool := s.all isBlank

def trimStart (s : Text) : Text := s.dropWhile isBlank

def trimEnd (s : Text) : Text := (s.reverse.dropWhile isBlank).reverse

def trim (s : Text) : Text := trimEnd (trimStart s)

end Text

end AsmAssist
