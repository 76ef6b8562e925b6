import ArtCanvas.Decimal.Binary64
import ArtCanvas.Decimal.Reading

/-!
# JSON values

A JSON text is read into a value that keeps what matters for deciding whether a field accepts it:
numbers stay as they are written, objects keep all their fields in order, and a string whose escapes
stand for no Unicode text is told apart from one that does.
-/

namespace ArtCanvas

/-- A JSON number as it is written. -/
structure JsonNumber where
  /-- Whether a minus stands in front. -/
  negative : Bool
  /-- The digits before the point. -/
  whole : List Char
  /-- The digits after the point; without a point there are none. -/
  fraction : List Char
  /-- The exponent, if one is written. -/
  exponent : Option Int
  deriving Repr

/-- A JSON value. A string without a text has an escape for half a surrogate pair. -/
inductive Json where
  | null
  | bool (value : Bool)
  | number (value : JsonNumber)
  | string (text : Option String)
  | array (items : List Json)
  | object (fields : List (Option String × Json))
  deriving Inhabited

namespace JsonNumber

/-- The largest whole number that fits 64 bits. -/
def maxWord : Nat := 18446744073709551615

/-- The largest whole number that fits 32 bits. -/
def maxIndex : Nat := 4294967295

/-- Whether the number is written without a point and without an exponent. -/
def isInteger (n : JsonNumber) : Bool := n.fraction.isEmpty && n.exponent.isNone

/-- Appends digits to a number as long as it fits 64 bits, and counts the digits that are left
out. -/
def appendDigits : Nat → List Char → Nat × Nat
  | n, [] => (n, 0)
  | n, c :: cs =>
    let next := Decimal.ofDigits n [c]
    if next ≤ maxWord then appendDigits next cs else (n, cs.length + 1)

/-- The leading digits that fit 64 bits, and the power of ten that scales them. Once a digit before
the point is left out, digits after it are still taken as long as they fit. -/
def scaled (n : JsonNumber) : Nat × Int :=
  let (whole, dropped) := appendDigits 0 n.whole
  let (digits, left) := appendDigits whole n.fraction
  (digits, n.exponent.getD 0 + dropped - (n.fraction.length - left : Nat))

/-- `x` divided by a power of ten. No power above `10 ^ 308` is a `Float`, so larger ones are taken
in steps, until nothing is left of `x`. -/
def divideByTen (x : Float) (power : Nat) : Float :=
  if power ≤ 308 then x / Decimal.tenPow power
  else if x == 0 then x
  else divideByTen (x / Decimal.tenPow 308) (power - 308)
  termination_by power
  decreasing_by omega

/-- The number as a `Float`: its leading digits are converted and scaled by one power of ten, and
each of the two steps rounds. There is none for a number that is too large. -/
def toFloat? (n : JsonNumber) : Option Float :=
  let (digits, power) := n.scaled
  let start := Decimal.nearest digits 1
  let value :=
    if digits = 0 then start
    else if power < 0 then divideByTen start (-power).toNat
    else if power ≤ 308 then start * Decimal.tenPow power.toNat
    else Decimal.tenPow 309
  if value.isInf then none else some (Decimal.withSign n.negative value)

/-- The number as a whole number up to `bound`. One with a minus, a point or an exponent is none. -/
def toNat? (bound : Nat) (n : JsonNumber) : Option Nat :=
  let value := Decimal.ofDigits 0 n.whole
  if n.isInteger && !n.negative && value ≤ bound then some value else none

end JsonNumber

end ArtCanvas
