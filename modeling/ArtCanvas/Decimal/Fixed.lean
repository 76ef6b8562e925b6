import ArtCanvas.Decimal.Binary64

/-!
# Numbers with a fixed number of decimal places

The exact value of a `Float` is rounded to a multiple of a power of ten, ties to even, and written
with all its places (`fixed`) or without the zeros at the end (`short`). The scripts of this library
write coordinates with `coordinate`, which keeps three places.
-/

namespace ArtCanvas.Decimal

/-- The absolute value of `d` in units of `10 ^ -places`, rounded to a whole number. -/
def Dyadic.units (places : Nat) (d : Dyadic) : Nat :=
  roundDiv .toEven (d.num * pow10 places) d.den

/-- The last `places` decimal digits of `n`, with leading zeros. -/
def lastDigits : Nat → Nat → List Char
  | 0, _ => []
  | places + 1, n => lastDigits places (n / 10) ++ [Nat.digitChar (n % 10)]

/-- The digits before the point of a number given in units of `10 ^ -places`. -/
def wholeDigits (places units : Nat) : List Char :=
  Nat.toDigits 10 (units / pow10 places)

/-- A sign, if one is due, in front of digits. -/
def signed (negative : Bool) (digits : List Char) : List Char :=
  if negative then '-' :: digits else digits

/-- What is written for a value that is not a finite number. -/
def special (x : Float) : String :=
  if x.isNaN then "NaN" else if x < 0 then "-inf" else "inf"

/-- `x` with exactly `places` decimal places. -/
def fixed (places : Nat) (x : Float) : String :=
  if x.isFinite then
    let d := Dyadic.ofFloat x
    let units := d.units places
    let point := if places = 0 then [] else ['.']
    String.ofList
      (signed d.negative (wholeDigits places units ++ point ++ lastDigits places units))
  else special x

/-- A whole number of thousandths without zeros at the end of its fraction, nor a point that nothing
follows. -/
def thousandthsText (negative : Bool) (units : Nat) : List Char :=
  let fraction := ((lastDigits 3 units).reverse.dropWhile (· == '0')).reverse
  let point := if fraction.isEmpty then [] else ['.']
  signed (negative && units != 0) (wholeDigits 3 units ++ point ++ fraction)

/-- A coordinate as scripts write it: rounded to thousandths, and shortened. A value that is not a
finite number is written as zero, so that a script can always be read. -/
def coordinate (x : Float) : String :=
  if x.isFinite then
    let d := Dyadic.ofFloat x
    String.ofList (thousandthsText d.negative (d.units 3))
  else "0"

end ArtCanvas.Decimal
