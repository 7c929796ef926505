import AsmAssist.Text.Blank

/-!
# Columns and byte offsets

Columns count UTF-16 units and offsets count UTF-8 bytes. Both are measures of the text that stands before
a place, so each conversion first cuts the text and then measures the part it kept.
-/

namespace AsmAssist.Text

/-- Characters beyond the basic plane take a surrogate pair. -/
def unitWidth (c : Char) : Nat := if c.toNat < 0x10000 then 1 else 2

def columns (s : Text) : Nat := s.foldr (fun c n => unitWidth c + n) 0

def bytes (s : Text) : Nat := s.foldr (fun c n => c.utf8Size + n) 0

/-- The characters that start before a column. A column inside a surrogate pair keeps the whole pair. -/
def takeColumns : Nat → Text → Text
  | 0, _ => []
  | _ + 1, [] => []
  | n + 1, c :: s => c :: takeColumns (n + 1 - unitWidth c) s

/-- The characters that end at or before a byte offset. -/
def takeBytes : Nat → Text → Text
  | _, [] => []
  | n, c :: s => if c.utf8Size ≤ n then c :: takeBytes (n - c.utf8Size) s else []

/-- The least character boundary at or after a column, or the end of the text. -/
def offsetOfColumn (s : Text) (column : Nat) : Nat := bytes (takeColumns column s)

/-- The column of the greatest character boundary at or before a byte offset. -/
def columnOfOffset (s : Text) (offset : Nat) : Nat := columns (takeBytes offset s)

end AsmAssist.Text
