import Mathlib.Algebra.Order.Field.Rat
import Mathlib.Data.Rat.Floor
import Mathlib.Tactic.NormNum.OfScientific
import ArtCanvas.Scalar

/-!
# Exact numbers

The formulas of clocks, curves and placements are written for any type of scalars. Over an ordered
field with whole parts they are exact: no operation rounds, and every comparison has the answer that
it has in mathematics.

* `ExactScalar`: such a field, with a full turn. Its operations are those of scalars.
* `ExactScalar.floor_eq`, `ExactScalar.greater_eq`, `ExactScalar.clamp_eq`, ...: the operations of
  scalars in the words of the field.
* `ExactScalar.zero_eq`, `ExactScalar.one_eq`, ...: the numbers that formulas are written with.
-/

namespace ArtCanvas

/-- An ordered field with whole parts, and a full turn in it. -/
class ExactScalar (α : Type) extends Field α, LinearOrder α, IsStrictOrderedRing α,
    FloorRing α where
  /-- A full turn, in radians, as near as the field has it. -/
  fullTurn : α

namespace ExactScalar

/-- Fractions are exact numbers. -/
instance : ExactScalar ℚ where
  fullTurn := 710 / 113

variable {α : Type} [ExactScalar α]

/-- Exact numbers are scalars. -/
instance : Scalar α where
  decLt := inferInstance
  decLe := inferInstance
  floor a := (⌊a⌋ : α)
  ofNat n := (n : α)
  toNat a := ⌊a⌋₊
  turn := fullTurn

/-! ### Numbers -/

theorem zero_eq : (0.0 : α) = 0 := by norm_num

theorem one_eq : (1.0 : α) = 1 := by norm_num

theorem two_eq : (2.0 : α) = 2 := by norm_num

theorem half_eq : (0.5 : α) = 1 / 2 := by norm_num

/-! ### Operations -/

/-- Rounding down is the usual floor. -/
theorem floor_eq (a : α) : Scalar.floor a = (⌊a⌋ : α) := rfl

theorem ofNat_eq (n : Nat) : (Scalar.ofNat n : α) = n := rfl

theorem toNat_eq (a : α) : Scalar.toNat a = ⌊a⌋₊ := rfl

/-- A number that was rounded down has that whole part. -/
theorem toNat_floor (a : α) : Scalar.toNat (Scalar.floor a) = ⌊a⌋₊ := by
  rw [floor_eq, toNat_eq, ← Int.floor_toNat, Int.floor_intCast, Int.floor_toNat]

/-- The greater of two numbers is their maximum. -/
theorem greater_eq (a b : α) : Scalar.greater a b = max a b := by
  rw [Scalar.greater, if_pos le_rfl]
  rcases lt_or_ge b a with h | h
  · rw [if_pos h, max_eq_left h.le]
  · rw [if_neg h.not_gt, max_eq_right h]

/-- Moving a number to the nearer end is a maximum of a minimum. -/
theorem clamp_eq (a : α) : Scalar.clamp a 0.0 1.0 = max 0 (min a 1) := by
  rw [Scalar.clamp, zero_eq, one_eq]
  split_ifs with hlow hhigh
  · rw [max_eq_left ((min_le_left _ _).trans hlow.le)]
  · rw [min_eq_right hhigh.le, max_eq_right zero_le_one]
  · rw [min_eq_left (not_lt.mp hhigh), max_eq_right (not_lt.mp hlow)]

end ExactScalar

end ArtCanvas
