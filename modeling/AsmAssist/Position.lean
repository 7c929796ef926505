import AsmAssist.Text.Units

/-!
# Positions, spans and tokens

A position is a zero-based line and a UTF-16 column. A span is half open; a span of no width marks the
place where an absent element would have started.
-/

namespace AsmAssist

structure Position where
  line : Nat
  character : Nat
  deriving DecidableEq, Repr

namespace Position

instance : LE Position :=
  ⟨fun p q => p.line < q.line ∨ p.line = q.line ∧ p.character ≤ q.character⟩

instance : LT Position :=
  ⟨fun p q => p.line < q.line ∨ p.line = q.line ∧ p.character < q.character⟩

instance (p q : Position) : Decidable (p ≤ q) :=
  inferInstanceAs (Decidable (p.line < q.line ∨ p.line = q.line ∧ p.character ≤ q.character))

instance (p q : Position) : Decidable (p < q) :=
  inferInstanceAs (Decidable (p.line < q.line ∨ p.line = q.line ∧ p.character < q.character))

end Position

structure Span where
  start : Position
  stop : Position
  deriving DecidableEq, Repr

namespace Span

def onLine (line start stop : Nat) : Span := ⟨⟨line, start⟩, ⟨line, stop⟩⟩

def empty (line column : Nat) : Span := onLine line column column

def isEmpty (s : Span) : Bool := s.start == s.stop

/-- The number of columns of a span that stays on one line; none otherwise. -/
def width (s : Span) : Nat :=
  if s.start.line = s.stop.line then s.stop.character - s.start.character else 0

def contains (s : Span) (p : Position) : Bool := s.start ≤ p && p < s.stop

/-- Unlike `contains`, accepts the end, where a cursor stands right after the last character. -/
def touches (s : Span) (p : Position) : Bool := s.start ≤ p && p ≤ s.stop

/-- The part of a line under the span's columns; nothing for an inverted span. -/
def slice (s : Span) (line : Text) : Text :=
  (Text.takeColumns s.stop.character line).drop (Text.takeColumns s.start.character line).length

end Span

structure Token where
  text : Text
  span : Span
  deriving DecidableEq, Repr

/-- The token `text` of a line in which `before` stands in front of it. -/
def Token.after (line : Nat) (before text : Text) : Token :=
  ⟨text, .onLine line (Text.columns before) (Text.columns before + Text.columns text)⟩

end AsmAssist
