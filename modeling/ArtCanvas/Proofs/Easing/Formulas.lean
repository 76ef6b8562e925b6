import ArtCanvas.Proofs.Easing.Shapes

/-!
# The formulas of algebraic easing curves

The easing curves that need nothing but arithmetic are written shape by shape, each with its own
signs and shifts. With exact numbers, the three formulas of a curve are one curve that is slow at
its start, bent into the three shapes.

* `Curve.IsAlgebraic`, `Easing.IsAlgebraic`: the curves that need nothing but arithmetic.
* `Curve.rise?`: such a curve in the shape that is slow at its start.
* `Easing.split_eq_mirrored`: when a formula in two halves is a mirrored curve.
* `Easing.arithmetic?_ease`: the formulas of all shapes.
-/

namespace ArtCanvas

open ExactScalar (one_eq two_eq half_eq)
open Shape (reversed mirrored)

variable {α : Type} [ExactScalar α]

namespace Curve

/-- The curves that need nothing but arithmetic. -/
def IsAlgebraic (curve : Curve) : Prop := curve ∈ [quad, cubic, quart, quint, bounce]

/-- Whether a curve is algebraic is read off its name. -/
instance (curve : Curve) : Decidable curve.IsAlgebraic := inferInstanceAs (Decidable (_ ∈ _))

/-- The curve in the shape that is slow at its start, if it needs nothing but arithmetic. -/
def rise? : Curve → Option (α → α)
  | quad => some fun t => t * t
  | cubic => some Easing.cube
  | quart => some Easing.fourth
  | quint => some Easing.fifth
  | bounce => some (reversed Easing.bounceOut)
  | sine | circ | expo => none

/-- Each algebraic curve has a formula for its rise. -/
theorem exists_rise? {curve : Curve} (h : curve.IsAlgebraic) :
    ∃ f : α → α, curve.rise? = some f := by
  cases curve with
  | quad | cubic | quart | quint | bounce => exact ⟨_, rfl⟩
  | sine | circ | expo => exact absurd h (by decide)

end Curve

namespace Easing

/-- The easing curves that need nothing but arithmetic. -/
def IsAlgebraic : Easing → Prop
  | .ease curve _ => curve.IsAlgebraic
  | .linear | .zeroStep | .halfStep | .oneStep | .clockTick => True

/-- Whether an easing is algebraic depends on its curve. -/
instance (easing : Easing) : Decidable easing.IsAlgebraic := by
  cases easing <;> unfold IsAlgebraic <;> infer_instance

/-! ### How formulas are written -/

section Formulas

theorem cube_neg (u : α) : cube (-u) = -cube u := by
  simp only [cube]
  ring

theorem fourth_neg (u : α) : fourth (-u) = fourth u := by
  simp only [fourth]
  ring

theorem fifth_neg (u : α) : fifth (-u) = -fifth u := by
  simp only [fifth]
  ring

/-- Time that is split in two halves gives a mirrored curve, if the second formula is the first one
seen from the end of the doubled time. -/
theorem split_eq_mirrored {first second f : α → α} {shift : α} (hfirst : ∀ u, first u = f u)
    (hsecond : ∀ u, second (u + shift) = 2 - f (2 - u)) :
    split first second shift = mirrored f := by
  funext t
  simp only [split, two_eq, one_eq, half_eq, hfirst, hsecond]
  rcases lt_or_ge t (1 / 2) with ht | ht
  · rw [if_pos (by linarith), Shape.mirrored_of_lt ht, mul_comm t 2]
    ring
  · have htime : 2 - t * 2 = 2 * (1 - t) := by ring
    rw [if_neg (by linarith), Shape.mirrored_of_le ht, htime]
    ring

/-- The formula of the bouncing curve is that of its end, reversed. -/
theorem reversed_bounceOut :
    (fun t : α => 1.0 - bounceOut (1.0 - t)) = reversed bounceOut := by
  funext t
  rw [one_eq, reversed]

/-- The bounce that is slow at both ends is written with a half of its own on each side. -/
theorem mirrored_bounceOut :
    (fun t : α => if t < 0.5 then (1.0 - bounceOut (1.0 - 2.0 * t)) * 0.5
      else bounceOut (2.0 * t - 1.0) * 0.5 + 0.5) = mirrored (reversed bounceOut) := by
  funext t
  simp only [two_eq, one_eq, half_eq, mirrored, reversed]
  split_ifs
  · ring
  · have htime : 1 - 2 * (1 - t) = 2 * t - 1 := by ring
    rw [htime]
    ring

section Powers

variable {f : α → α}

/-- How the cubic and the quintic curve are written from their end. -/
theorem reversed_of_odd (hf : ∀ u, f (-u) = -f u) :
    (fun t => f (t - 1.0) + 1.0) = reversed f := by
  funext t
  rw [one_eq, reversed, ← neg_sub t 1, hf]
  ring

/-- The formula with two cases of an odd power is the mirrored power. -/
theorem mirrored_of_odd (hf : ∀ u, f (-u) = -f u) :
    split f (fun u => f u + 2.0) (-2.0) = mirrored f := by
  refine split_eq_mirrored (fun _ => rfl) fun u => ?_
  -- the second half is written in the doubled time less 2, which is never positive
  rw [two_eq, ← neg_sub u 2, hf, ← sub_eq_add_neg]
  ring

/-- How the quartic curve is written from its end. -/
theorem reversed_of_even (hf : ∀ u, f (-u) = f u) :
    (fun t => -(f (t - 1.0) - 1.0)) = reversed f := by
  funext t
  rw [one_eq, reversed, ← neg_sub t 1, hf, neg_sub]

/-- So is that of an even power, with other signs. -/
theorem mirrored_of_even (hf : ∀ u, f (-u) = f u) :
    split f (fun u => -(f u - 2.0)) (-2.0) = mirrored f := by
  refine split_eq_mirrored (fun _ => rfl) fun u => ?_
  rw [two_eq, ← neg_sub u 2, hf, ← sub_eq_add_neg, neg_sub]

/-- The quadratic curve is written in a way of its own. -/
theorem reversed_square : (fun t : α => -t * (t - 2.0)) = reversed fun t => t * t := by
  funext t
  rw [two_eq, reversed]
  ring

/-- The formula of the square is written in another way, and is the mirrored square too. -/
theorem mirrored_square :
    split (fun u : α => u * u) (fun u => -(u * (u - 2.0) - 1.0)) (-1.0) =
      mirrored fun t => t * t := by
  refine split_eq_mirrored (fun _ => rfl) fun u => ?_
  rw [two_eq, one_eq]
  ring

end Powers

/-- The formulas of all shapes are those of the curve that is slow at its start, bent. -/
theorem arithmetic?_ease (curve : Curve) (shape : Shape) :
    (ease curve shape).arithmetic? = (curve.rise?.map shape.bend : Option (α → α)) := by
  cases curve with
  | sine | circ | expo => cases shape <;> rfl
  | quad =>
    cases shape with
    | easeIn => rfl
    | easeOut => exact congrArg some reversed_square
    | easeInOut => exact congrArg some mirrored_square
  | cubic =>
    -- the odd powers carry the sign of a time that is counted back, and the even ones lose it
    cases shape with
    | easeIn => rfl
    | easeOut => exact congrArg some (reversed_of_odd cube_neg)
    | easeInOut => exact congrArg some (mirrored_of_odd cube_neg)
  | quart =>
    cases shape with
    | easeIn => rfl
    | easeOut => exact congrArg some (reversed_of_even fourth_neg)
    | easeInOut => exact congrArg some (mirrored_of_even fourth_neg)
  | quint =>
    cases shape with
    | easeIn => rfl
    | easeOut => exact congrArg some (reversed_of_odd fifth_neg)
    | easeInOut => exact congrArg some (mirrored_of_odd fifth_neg)
  | bounce =>
    cases shape with
    | easeIn => exact congrArg some reversed_bounceOut
    | easeOut => exact congrArg some (Shape.reversed_reversed bounceOut).symm
    | easeInOut => exact congrArg some mirrored_bounceOut

end Formulas

/-- Each algebraic easing is made of arithmetic. -/
theorem exists_arithmetic? {easing : Easing} (h : easing.IsAlgebraic) :
    ∃ f : α → α, easing.arithmetic? = some f := by
  cases easing with
  | ease curve shape =>
    obtain ⟨rise, hrise⟩ := Curve.exists_rise? (α := α) h
    exact ⟨shape.bend rise, by rw [arithmetic?_ease, hrise, Option.map_some]⟩
  | linear | zeroStep | halfStep | oneStep | clockTick => exact ⟨_, rfl⟩

end Easing

end ArtCanvas
