import AsmAssist.Text.Blank

/-!
# Comparing text without regard to case

Keywords are ASCII. Comparing them by simple case folding lets in two characters beyond ASCII, the long s and
the Kelvin sign; comparing them by ASCII case lets in none.
-/

namespace AsmAssist.Text

/-- The ASCII capital that a character folds to, or the character itself. -/
def foldLetter (c : Char) : Char :=
  if c = 'ſ' then 'S' else if c = '\u212a' then 'K' else c.toUpper

/-- Equality under simple case folding with a text of ASCII capitals, digits and marks. -/
def foldsTo (s keyword : Text) : Bool := s.map foldLetter == keyword

/-- Equality up to the case of ASCII letters. -/
def eqAsciiCase (s t : Text) : Bool := s.map Char.toUpper == t.map Char.toUpper

end AsmAssist.Text
