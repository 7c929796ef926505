import AsmAssist.Run

/-!
# The word at the cursor

Words are what editors select: runs of characters that are neither blank nor separators. The minus sign and
the underscore are part of words.
-/

namespace AsmAssist.Word

def separators : Text := "`~!@#$%^&*()=+[\x7b]\x7d\\|;:'\",.<>/?".toList

def isPart (c : Char) : Bool := !isBlank c && !separators.contains c

/-- The word that touches a column, its own end included. -/
def at? (raw : Text) (line character : Nat) : Option Token :=
  ((Run.all isPart raw).find? fun r => r.start ≤ character && character ≤ r.stop).map
    (Run.token line 0)

end AsmAssist.Word
