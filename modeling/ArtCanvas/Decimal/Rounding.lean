/-!
# Rounding a quotient to a whole number

`roundDiv num den tie` is the whole number nearest to `num / den`. The rule for a quotient that lies
exactly halfway is a parameter, because the number formats of this library differ in it.
-/

namespace ArtCanvas.Decimal

/-- Where a value goes that lies halfway between two neighbours. -/
inductive Tie where
  /-- To the neighbour that is even. -/
  | toEven
  /-- To the larger neighbour. -/
  | up
  deriving DecidableEq, Repr

/-- Whether a value goes to its upper neighbour: `twice` is twice the distance to the lower
neighbour `low`, and `unit` the distance between the neighbours. -/
def Tie.goesUp (tie : Tie) (low twice unit : Nat) : Bool :=
  if twice < unit then false
  else if unit < twice then true
  else match tie with
    | .toEven => low % 2 == 1
    | .up => true

/-- The whole number nearest to `num / den`. -/
def roundDiv (tie : Tie) (num den : Nat) : Nat :=
  let low := num / den
  if tie.goesUp low (2 * (num % den)) den then low + 1 else low

/-- Rounding moves a quotient by at most one half. -/
theorem roundDiv_near (tie : Tie) (num den : Nat) (h : 0 < den) :
    2 * num ≤ 2 * (roundDiv tie num den * den) + den ∧
      2 * (roundDiv tie num den * den) ≤ 2 * num + den := by
  have split := Nat.div_add_mod num den
  have small := Nat.mod_lt num h
  have next : (num / den + 1) * den = den * (num / den) + den := by
    rw [Nat.add_mul, Nat.one_mul, Nat.mul_comm]
  have same : num / den * den = den * (num / den) := Nat.mul_comm _ _
  cases tie <;> simp only [roundDiv, Tie.goesUp] <;> split <;> grind

/-- A quotient halfway between two whole numbers is rounded to the even one. -/
theorem roundDiv_toEven_of_half (num den : Nat) (h : 2 * (num % den) = den) :
    roundDiv .toEven num den % 2 = 0 := by
  simp only [roundDiv, Tie.goesUp, h, Nat.lt_irrefl, if_false]
  split <;> grind

end ArtCanvas.Decimal
