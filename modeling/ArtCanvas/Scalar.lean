/-!
# Numbers to compute with

Clocks, timing curves and placements are written once, for any type of numbers with the operations
below. A program runs them on `Float`; the same formulas can be read over exact numbers.
-/

namespace ArtCanvas

/-- A type of numbers with arithmetic, comparisons, decimal literals and whole parts. -/
class Scalar (α : Type) extends Add α, Sub α, Mul α, Div α, Neg α, LT α, LE α, OfScientific α where
  /-- Comparing strictly is decidable. -/
  decLt : DecidableLT α
  /-- Comparing is decidable. -/
  decLe : DecidableLE α
  /-- The greatest whole number that is not above the argument. -/
  floor : α → α
  /-- A whole number as a scalar. -/
  ofNat : Nat → α
  /-- A scalar that is a whole number and not negative, as a natural number. -/
  toNat : α → Nat
  /-- A full turn, in radians. -/
  turn : α

namespace Scalar

variable {α : Type} [Scalar α]

/-- The strict comparison of scalars can be computed. -/
instance : DecidableLT α := Scalar.decLt

/-- So can the other one. -/
instance : DecidableLE α := Scalar.decLe

/-- The smaller of two numbers, and of equal ones the second, which shows where zeros of both signs
meet. An operand that is not comparable even to itself is passed over. -/
def lesser (a b : α) : α :=
  if b ≤ b then (if a < b then a else b) else a

/-- The larger of two numbers, and of equal ones the second, which shows where zeros of both signs
meet. An operand that is not comparable even to itself is passed over. -/
def greater (a b : α) : α :=
  if b ≤ b then (if b < a then a else b) else a

/-- `a` moved into the interval from `low` to `high`. -/
def clamp (a low high : α) : α :=
  if a < low then low else if high < a then high else a

/-- The absolute value. -/
def magnitude (a : α) : α := if a < 0.0 then -a else a

end Scalar

/-- Half a turn, in radians. -/
def halfTurn : Float := 3.141592653589793

/-- Floats are scalars, with their own operations. -/
instance : Scalar Float where
  decLt := Float.decLt
  decLe := Float.decLe
  floor := Float.floor
  ofNat := Float.ofNat
  toNat x := x.toUInt64.toNat
  turn := 2.0 * halfTurn

end ArtCanvas
