import AsmAssist.Position

/-!
# Runs of characters

A run is a maximal stretch of characters that share a property, with the column where it starts.
-/

namespace AsmAssist

structure Run where
  start : Nat
  text : Text
  deriving DecidableEq, Repr

namespace Run

def stop (r : Run) : Nat := r.start + Text.columns r.text

/-- The run read so far, which `current` holds in reverse, unless it is empty. -/
def close (start : Nat) (current : Text) : List Run :=
  if current = [] then [] else [⟨start, current.reverse⟩]

/-- The runs of the rest of a line. The unfinished run starts at `start` and `current` holds it in reverse. -/
def scan (p : Char → Bool) (start : Nat) (current : Text) : Text → List Run
  | [] => close start current
  | c :: s =>
    if p c then scan p start (c :: current) s
    else close start current ++ scan p (start + Text.columns current + Text.unitWidth c) [] s

def all (p : Char → Bool) (s : Text) : List Run := scan p 0 [] s

/-- The run as a token of a line, in which the text of the run starts at `column`. -/
def token (line column : Nat) (r : Run) : Token :=
  ⟨r.text, .onLine line (column + r.start) (column + r.stop)⟩

end Run

end AsmAssist
