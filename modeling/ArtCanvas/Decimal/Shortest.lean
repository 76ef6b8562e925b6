import ArtCanvas.Decimal.Binary64

/-!
# The shortest decimal that reads back

Of the decimals that round to a given `Float`, the ones with the fewest digits are written, and of
those the one nearest to the exact value. `shortest` finds it by trying one digit, two digits, and
so on: on the grid of decimals with a given last place only the two neighbours of the exact value
can be the nearest that reads back.
-/

namespace ArtCanvas.Decimal

/-- The decimal number `coefficient * 10 ^ exponent`. -/
structure Scientific where
  /-- The significant digits as one whole number. -/
  coefficient : Nat
  /-- The power of ten of the last digit. -/
  exponent : Int
  deriving DecidableEq, Repr

namespace Dyadic

/-- Whether the neighbour below is half as far away as the neighbour above, which is so at powers of
two above the subnormal numbers. -/
def narrowBelow (d : Dyadic) : Bool :=
  d.mantissa == pow2 52 && (-1074 : Int) < d.exponent

/-- The lower end of the numbers that round to the absolute value of `d`, in quarters of the last
place. -/
def lowEnd (d : Dyadic) : Nat :=
  if d.narrowBelow then 4 * d.mantissa - 1 else 4 * d.mantissa - 2

/-- The upper end of those numbers, in quarters of the last place. -/
def highEnd (d : Dyadic) : Nat := 4 * d.mantissa + 2

/-- Whether the decimal `s` rounds to the absolute value of `d`. The ends of the interval belong to
it when the mantissa is even. -/
def holds (d : Dyadic) (s : Scientific) : Bool :=
  let scaled := 4 * s.coefficient * pow10 s.exponent.toNat * d.den
  let unit := pow2 d.exponent.toNat * pow10 (-s.exponent).toNat
  let low := d.lowEnd * unit
  let high := d.highEnd * unit
  if d.mantissa % 2 = 0 then low ≤ scaled && scaled ≤ high else low < scaled && scaled < high

/-- The least `k` with the absolute value of `d` below `10 ^ k`, for a value other than zero. -/
def magnitude (d : Dyadic) : Int :=
  if d.den ≤ d.num then (Nat.toDigits 10 (d.num / d.den)).length
  else
    let inverse := (d.den + d.num - 1) / d.num
    1 - (Nat.toDigits 10 (inverse - 1)).length

/-- The decimal with last place `10 ^ place` that is nearest to the absolute value of `d` among
those that read back, if there is one. -/
def onGrid? (d : Dyadic) (tie : Tie) (place : Int) : Option Scientific :=
  let num := d.num * pow10 (-place).toNat
  let den := d.den * pow10 place.toNat
  let low : Scientific := ⟨num / den, place⟩
  let high : Scientific := ⟨num / den + 1, place⟩
  match d.holds low, d.holds high with
  | true, false => some low
  | false, true => some high
  | false, false => none
  | true, true =>
    if tie.goesUp low.coefficient (2 * (num % den)) den then some high else some low

end Dyadic

/-- Moves the zeros at the end of the coefficient into the exponent; `fuel` bounds their number. -/
def Scientific.trimZeros : Nat → Scientific → Scientific
  | 0, s => s
  | fuel + 1, s =>
    if s.coefficient ≠ 0 ∧ s.coefficient % 10 = 0 then
      trimZeros fuel ⟨s.coefficient / 10, s.exponent + 1⟩
    else s

/-- The shortest decimal that reads back as the absolute value of `d`. Seventeen digits are always
enough, so the exact value that closes the search is never reached from a `Float`. -/
def shortest (tie : Tie) (d : Dyadic) : Scientific :=
  if d.mantissa = 0 then ⟨0, 0⟩
  else
    let top := d.magnitude
    let found := (List.range 17).findSome? fun digits => d.onGrid? tie (top - 1 - (digits : Nat))
    let s := found.getD ⟨d.num * Nat.pow 5 (-d.exponent).toNat, -Int.ofNat (-d.exponent).toNat⟩
    s.trimZeros (Nat.toDigits 10 s.coefficient).length

end ArtCanvas.Decimal
