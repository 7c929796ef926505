import AsmAssist.Decimal
import AsmAssist.Text.Quoted
import Std.Data.TreeMap

/-!
# Option values

Clients send options as a tree of values of any shape.
-/

namespace AsmAssist.Settings

inductive Value
  | null
  | bool (b : Bool)
  | integer (n : Int)
  | real (x : Float)
  | text (s : Text)
  | list (items : List Value)
  /-- Members in the order of their keys, each key once. -/
  | record (members : List (Text × Value))

namespace Value

/-- A record of the given members; of two with one key the later counts. -/
def ofMembers (members : List (Text × Value)) : Value :=
  .record (members.foldl (fun table (key, v) => table.insert key v)
    (∅ : Std.TreeMap Text Value)).toList

/-- A number as written: sign, digits before and after the point, exponent. -/
structure Numeral where
  negative : Bool
  whole : Text
  fraction : Option Text
  exponent : Option Int

/-- Adds a digit to a significand while it fits in 64 bits. -/
def pushDigit? (n : Nat) (c : Char) : Option Nat :=
  let n := n * 10 + (c.toNat - '0'.toNat)
  if n < 0x10000000000000000 then some n else none

/-- The significand of a whole part, and how many of its digits no longer fit. -/
def wholeDigits (n : Nat) : Text → Nat × Nat
  | [] => (n, 0)
  | c :: s =>
    match pushDigit? n c with
    | some n => wholeDigits n s
    | none => (n, s.length + 1)

/-- The significand after a fraction, and how many of its digits were taken in. -/
def fractionDigits (n taken : Nat) : Text → Nat × Nat
  | [] => (n, taken)
  | c :: s =>
    match pushDigit? n c with
    | some n => fractionDigits n (taken + 1) s
    | none => (n, taken)

/-- Scales by a power of ten; a power below `10 ^ -308` is applied in two steps. -/
def scale (x : Float) (power : Int) : Float :=
  if 0 ≤ power then x * Float.ofScientific 1 false power.toNat
  else if -308 ≤ power then x / Float.ofScientific 1 false (-power).toNat
  else x / Float.ofScientific 1 false 308 / Float.ofScientific 1 false (-power - 308).toNat

/-- A number without point and exponent is an integer if it fits in 64 bits, with a sign when negative; the
negative zero and all other numbers are reals. -/
def ofNumeral (numeral : Numeral) : Value :=
  let (whole, dropped) := wholeDigits 0 numeral.whole
  let (significand, taken) := fractionDigits whole 0 (numeral.fraction.getD [])
  let magnitude := scale (Float.ofNat significand) ((numeral.exponent.getD 0) + dropped - taken)
  let real := Value.real (if numeral.negative then -magnitude else magnitude)
  if numeral.fraction.isSome || numeral.exponent.isSome || dropped ≠ 0 then real
  else if !numeral.negative then .integer whole
  else if 0 < whole && whole ≤ 0x8000000000000000 then .integer (-whole)
  else real

/-- What a value is called in a message. -/
def describe : Value → Text
  | .null => "null".toList
  | .bool b => "boolean `".toList ++ (if b then "true" else "false").toList ++ "`".toList
  | .integer n => "integer `".toList ++ (toString n).toList ++ "`".toList
  | .real x => "floating point `".toList ++ Decimal.ofFloat x ++ "`".toList
  | .text s => "string ".toList ++ Text.quoted s
  | .list _ => "sequence".toList
  | .record _ => "map".toList

end Value

end AsmAssist.Settings
