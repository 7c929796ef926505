/-!
# Code point ranges

A property of characters is a list of inclusive code point ranges in increasing order.
-/

namespace AsmAssist

/-- Membership in ranges that increase: the search ends at the first range beyond `n`. -/
def inRanges (n : Nat) : List (Nat × Nat) → Bool
  | [] => false
  | (low, high) :: rest => if n < low then false else n ≤ high || inRanges n rest

end AsmAssist
