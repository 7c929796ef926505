import AsmAssist.Text.Blank

/-!
# Shortest decimal text

The decimal of fewest digits that lies nearest to a double among those that read back as it. A double is
`m * 2 ^ q`; the reals that round to it form an interval around it, closed when `m` is even. The coarsest
power of ten that has a multiple in the interval gives the fewest digits.
-/

namespace AsmAssist.Decimal

/-- A positive double: significand, exponent of two, and whether its lower neighbour is nearer than the
upper one. -/
structure Binary where
  significand : Nat
  exponent : Int
  narrowBelow : Bool

def Binary.ofBits (bits : Nat) : Binary :=
  let fraction : Nat := bits % 0x10000000000000
  let biased : Nat := bits / 0x10000000000000 % 0x800
  if biased = 0 then ⟨fraction, -1074, false⟩
  else ⟨0x10000000000000 + fraction, Int.ofNat biased - 1075, fraction = 0 && 1 < biased⟩

/-- The nonnegative and the nonpositive part of an exponent. -/
def splitPower (base : Nat) (e : Int) : Nat × Nat := (base.pow e.toNat, base.pow (-e).toNat)

/-- The multiple of `10 ^ k` nearest to the double, if it is inside the interval and not zero. Lengths are
measured in quarters of the double's last place. -/
def Binary.multiple? (b : Binary) (k : Int) : Option Nat :=
  let (ten, tenth) := splitPower 10 k
  let (two, half) := splitPower 2 (b.exponent - 2)
  let unit := two * tenth
  let step := ten * half
  let value := 4 * b.significand * unit
  let low := (4 * b.significand - if b.narrowBelow then 1 else 2) * unit
  let high := (4 * b.significand + 2) * unit
  let closed := b.significand % 2 = 0
  let inside := fun d => decide (0 < d) &&
    if closed then low ≤ d * step && d * step ≤ high else low < d * step && d * step < high
  let below := value / step
  let above := below + 1
  let nearBelow := value - below * step
  let nearAbove := above * step - value
  let preferBelow := nearBelow < nearAbove || nearBelow = nearAbove && below % 2 = 0
  match inside below, inside above with
  | true, true => some (if preferBelow then below else above)
  | true, false => some below
  | false, true => some above
  | false, false => none

/-- Digits and power of ten, trying the powers from `310` down. -/
def Binary.shortest (b : Binary) : Nat → Nat × Int
  | 0 => (0, 0)
  | tries + 1 =>
    let k : Int := tries - 340
    match b.multiple? k with
    | some d => (d, k)
    | none => b.shortest tries

def zeros (n : Nat) : Text := List.replicate n '0'

/-- An exponent always carries its sign. -/
def exponentText (e : Int) : Text := (if e < 0 then '-' else '+') :: Nat.toDigits 10 e.natAbs

/-- Writes `digits * 10 ^ k`: positionally from `0.00001` up to, not including, `10 ^ 16`, and with an
exponent elsewhere. -/
def layOut (digits : Text) (k : Int) : Text :=
  let length : Int := digits.length
  let point := length + k
  if 0 ≤ k && point ≤ 16 then digits ++ zeros k.toNat ++ ['.', '0']
  else if 0 < point && point ≤ 16 then digits.take point.toNat ++ '.' :: digits.drop point.toNat
  else if -5 < point && point ≤ 0 then '0' :: '.' :: zeros (-point).toNat ++ digits
  else
    let exponent := exponentText (point - 1)
    match digits with
    | [d] => d :: 'e' :: exponent
    | d :: rest => d :: '.' :: rest ++ 'e' :: exponent
    | [] => []

/-- The text of a finite double, always with a point or an exponent. -/
def ofFloat (x : Float) : Text :=
  let bits := x.toBits.toNat
  let sign : Text := if 0x8000000000000000 ≤ bits then ['-'] else []
  let magnitude := bits % 0x8000000000000000
  if magnitude = 0 then sign ++ "0.0".toList
  else
    let (digits, k) := (Binary.ofBits magnitude).shortest 651
    sign ++ layOut (Nat.toDigits 10 digits) k

end AsmAssist.Decimal
