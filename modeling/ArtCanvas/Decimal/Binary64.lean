import ArtCanvas.Decimal.Rounding

/-!
# Binary floating point numbers as exact values

A finite `Float` is a whole number times a power of two. `Dyadic.ofFloat` reads that value off the
bits, and `nearest` goes the other way: it gives the `Float` closest to a quotient of whole numbers.
All number texts of the library are made from the exact value.

Floating point numbers are scaled by powers of two, and their texts by powers of ten.
-/

namespace ArtCanvas.Decimal

/-! ### Powers -/

/-- Two to the power `k`. -/
def pow2 (k : Nat) : Nat := Nat.pow 2 k

/-- Ten to the power `k`. -/
def pow10 (k : Nat) : Nat := Nat.pow 10 k

@[simp]
theorem pow2_zero : pow2 0 = 1 := rfl

theorem pow2_pos (k : Nat) : 0 < pow2 k := Nat.two_pow_pos k

@[simp]
theorem pow10_zero : pow10 0 = 1 := rfl

/-! ### Exact values -/

/-- The value `mantissa * 2 ^ exponent`, with a sign. -/
structure Dyadic where
  /-- Whether the sign bit is set; zero carries a sign too. -/
  negative : Bool
  /-- The whole number that is scaled. -/
  mantissa : Nat
  /-- The power of two that scales it. -/
  exponent : Int
  deriving DecidableEq, Repr

namespace Dyadic

/-- The exact value of a finite `Float`. -/
def ofFloat (x : Float) : Dyadic :=
  let bits := x.toBits.toNat
  let biased : Nat := bits / pow2 52 % pow2 11
  let fraction : Nat := bits % pow2 52
  { negative := bits / pow2 63 == 1
    mantissa := if biased = 0 then fraction else pow2 52 + fraction
    exponent := if biased = 0 then -1074 else Int.ofNat biased - 1075 }

/-- The numerator of the absolute value, as a quotient of whole numbers. -/
def num (d : Dyadic) : Nat := d.mantissa * pow2 d.exponent.toNat

/-- The denominator of the absolute value, a power of two. -/
def den (d : Dyadic) : Nat := pow2 (-d.exponent).toNat

theorem den_pos (d : Dyadic) : 0 < d.den := pow2_pos _

end Dyadic

/-- The exponent of the last binary place that a `Float` near `num / den` can hold. -/
def lastPlace (num den : Nat) : Int :=
  let guess : Int := (Nat.log2 num : Int) - Nat.log2 den - 52
  let whole := num * pow2 (-guess).toNat / (den * pow2 guess.toNat)
  max (-1074) (if whole < pow2 52 then guess - 1 else guess)

/-- The non-negative `Float` nearest to `num / den`, ties to an even last place; infinity where the
quotient is too large. -/
def nearest (num den : Nat) : Float :=
  if num = 0 then Float.ofBits 0
  else
    let place := lastPlace num den
    let units := roundDiv .toEven (num * pow2 (-place).toNat) (den * pow2 place.toNat)
    let bits := if units < pow2 52 then units else (place + 1074).toNat * pow2 52 + units
    Float.ofBits (UInt64.ofNat (min bits (0x7FF * pow2 52)))

/-- The `Float` nearest to a power of ten. -/
def tenPow (k : Nat) : Float :=
  nearest (pow10 k) 1

/-- `x` with the sign bit set. It differs from `0 - x` at zero. -/
def withSign (negative : Bool) (x : Float) : Float :=
  if negative then -x else x

end ArtCanvas.Decimal
