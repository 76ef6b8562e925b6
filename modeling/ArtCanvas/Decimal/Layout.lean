import ArtCanvas.Decimal.Fixed
import ArtCanvas.Decimal.Shortest

/-!
# Texts of shortest decimals

Two formats write a `Float` with its shortest digits. `plain` never uses an exponent and writes a
whole number without a point; `json` writes a point or an exponent always, so that the text reads
back as a floating point number.
-/

namespace ArtCanvas.Decimal

/-- `n` zeros. -/
def zeros (n : Nat) : List Char := List.replicate n '0'

/-- `digits * 10 ^ exponent` without an exponent. -/
def positional (digits : List Char) (exponent : Int) : List Char :=
  let point := (digits.length : Int) + exponent
  if 0 ≤ exponent then digits ++ zeros exponent.toNat
  else if 0 < point then digits.take point.toNat ++ '.' :: digits.drop point.toNat
  else '0' :: '.' :: zeros (-point).toNat ++ digits

/-- The digits of a coefficient. -/
def Scientific.digits (s : Scientific) : List Char := Nat.toDigits 10 s.coefficient

/-- The shortest digits of `x` without an exponent. A whole number has no point. -/
def plain (x : Float) : String :=
  if x.isFinite then
    let d := Dyadic.ofFloat x
    let s := shortest .up d
    String.ofList (signed d.negative (positional s.digits s.exponent))
  else special x

/-- `plain` with the sign of zero dropped. -/
def plainUnsignedZero (x : Float) : String :=
  if x == 0 then "0" else plain x

/-- The digits of `s` with one digit before the point and a power of ten. -/
def withExponent (s : Scientific) : List Char :=
  let digits := s.digits
  let power := (digits.length : Int) + s.exponent - 1
  let fraction := match digits.drop 1 with
    | [] => []
    | rest => '.' :: rest
  let sign := if power < 0 then '-' else '+'
  digits.take 1 ++ fraction ++ 'e' :: sign :: Nat.toDigits 10 power.natAbs

/-- The shortest digits of a finite `x` as a JSON number that is no integer: without an exponent
from `1e-5` up to `1e16`, with one elsewhere. -/
def json (x : Float) : String :=
  let d := Dyadic.ofFloat x
  let s := shortest .toEven d
  let power := (s.digits.length : Int) + s.exponent - 1
  let text :=
    if -5 ≤ power ∧ power < 16 then
      let whole := if 0 ≤ s.exponent then ['.', '0'] else []
      positional s.digits s.exponent ++ whole
    else withExponent s
  String.ofList (signed d.negative text)

end ArtCanvas.Decimal
