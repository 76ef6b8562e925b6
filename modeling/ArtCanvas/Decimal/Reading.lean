import ArtCanvas.Decimal.Binary64
import ArtCanvas.Text.Blank

/-!
# Reading numbers

`readFloat?` reads the numbers of layer options and of path data: an optional sign, digits with an
optional point on either side, an optional exponent, or one of the words for infinity and NaN. The
result is the `Float` nearest to the number that is written. `readNat?` reads a count that fits
32 bits.
-/

namespace ArtCanvas.Decimal

/-- The whole number that `digits` write, to the right of what is already read as `start`. -/
def ofDigits (start : Nat) (digits : List Char) : Nat :=
  digits.foldl (fun n c => 10 * n + (c.toNat - '0'.toNat)) start

/-- The longest run of digits at the start of `cs`, and the rest. -/
def takeDigits (cs : List Char) : List Char × List Char :=
  (cs.takeWhile Char.isDigit, cs.dropWhile Char.isDigit)

/-- A sign at the start of `cs`: whether it is a minus, and the rest. -/
def takeSign : List Char → Bool × List Char
  | '-' :: cs => (true, cs)
  | '+' :: cs => (false, cs)
  | cs => (false, cs)

/-- The `Float` nearest to `coefficient * 10 ^ exponent`. Far outside the range of `Float` the power
of ten is not computed. -/
def scaleByTen (coefficient : Nat) (exponent : Int) : Float :=
  let power := (Nat.toDigits 10 coefficient).length + exponent
  if coefficient = 0 ∨ power < -400 then nearest 0 1
  else if 400 < power then nearest (pow10 400) 1
  else nearest (coefficient * pow10 exponent.toNat) (pow10 (-exponent).toNat)

/-- An exponent that ends the text: `e` or `E`, a sign or none, and at least one digit. No text at
all stands for zero. -/
def readExponent? : List Char → Option Int
  | [] => some 0
  | c :: cs =>
    if c = 'e' ∨ c = 'E' then
      let (negative, cs) := takeSign cs
      let (digits, rest) := takeDigits cs
      if digits.isEmpty ∨ ¬ rest.isEmpty then none
      else
        let magnitude : Int := ofDigits 0 digits
        some (if negative then -magnitude else magnitude)
    else none

/-- The digits before and after an optional point, and the rest. There must be one digit. -/
def readMantissa? (cs : List Char) : Option (List Char × List Char × List Char) :=
  let (whole, rest) := takeDigits cs
  let (fraction, rest) := match rest with
    | '.' :: rest => takeDigits rest
    | rest => ([], rest)
  if whole.isEmpty ∧ fraction.isEmpty then none else some (whole, fraction, rest)

/-- An unsigned number in decimal digits. -/
def readDecimal? (cs : List Char) : Option Float := do
  let (whole, fraction, rest) ← readMantissa? cs
  let exponent ← readExponent? rest
  some (scaleByTen (ofDigits (ofDigits 0 whole) fraction) (exponent - fraction.length))

/-- The words for values that no digits write. -/
def readWord? (cs : List Char) : Option Float :=
  match String.ofList (cs.map Char.toLower) with
  | "inf" | "infinity" => some (Float.ofBits 0x7FF0000000000000)
  | "nan" => some (Float.ofBits 0x7FF8000000000000)
  | _ => none

/-- Reads a number that makes up the whole text. -/
def readFloat? (text : String) : Option Float :=
  let (negative, cs) := takeSign text.toList
  ((readWord? cs).or (readDecimal? cs)).map (withSign negative)

/-- Reads a number that makes up the whole text and is finite. -/
def readFinite? (text : String) : Option Float :=
  (readFloat? text).filter Float.isFinite

/-- Reads a whole number below `2 ^ 32`: digits, with a plus sign or none in front. -/
def readNat? (text : String) : Option Nat :=
  let digits := match text.toList with
    | '+' :: cs => cs
    | cs => cs
  if digits.isEmpty ∨ ¬ digits.all Char.isDigit then none
  else
    let n := ofDigits 0 digits
    if n ≤ 4294967295 then some n else none

end ArtCanvas.Decimal
