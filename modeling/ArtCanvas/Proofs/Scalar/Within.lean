import ArtCanvas.Proofs.Scalar.Rounding

/-!
# Numbers of moderate size

As long as numbers are far from the largest ones, operations do not leave the finite numbers, and
what is rounded off is small against a bound on the numbers. Multiplying by one and adding zero
round nothing at all.

* `Binary64.Within`: a finite number that is no further than a bound from zero.
* `Binary64.exact_zero`, `Binary64.exact_one`, `Binary64.exact_magnitude`: exact values of simple
  numbers.
* `Binary64.near_add`: a sum of two such numbers is near the exact sum.
* `Binary64.exact_one_mul`, `Binary64.exact_zero_add`, ...: the operations that are exact.
-/

namespace ArtCanvas

open Decimal (exact)

namespace Binary64

/-- Zero is exact. -/
theorem exact_zero : (0.0 : Float).isFinite = true ∧ exact 0.0 = 0 := by
  have hfields : Decimal.Dyadic.ofFloat 0.0 = ⟨false, 0, -1074⟩ := by decide +kernel
  refine ⟨by decide +kernel, ?_⟩
  rw [exact, hfields]
  simp [Decimal.Dyadic.value]

/-- One is exact. -/
theorem exact_one : (1.0 : Float).isFinite = true ∧ exact 1.0 = 1 := by
  have hfields : Decimal.Dyadic.ofFloat 1.0 = ⟨false, 2 ^ 52, -52⟩ := by decide +kernel
  refine ⟨by decide +kernel, ?_⟩
  rw [exact, hfields]
  norm_num [Decimal.Dyadic.value]

/-- So is its negative. -/
theorem exact_neg_one : (-1.0 : Float).isFinite = true ∧ exact (-1.0) = -1 := by
  have h := exact_neg exact_one.1
  rwa [exact_one.2] at h

/-- Far below the largest number no result is too large. -/
theorem lt_limit {v : ℚ} (h : v ≤ 2 ^ 250) : v < 2 ^ (1023 : ℤ) := by
  refine h.trans_lt ?_
  rw [← zpow_natCast]
  exact zpow_lt_zpow_right₀ one_lt_two (by norm_num)

/-- The distance of the smallest floats is below any that matters here. -/
theorem underflow_le : underflow ≤ 1 / 2 ^ 250 := by
  rw [one_div, ← zpow_natCast, ← zpow_neg]
  exact zpow_le_zpow_right₀ one_lt_two.le (by norm_num)

/-- A finite number that is no further than `r` from zero. -/
structure Within (r : ℚ) (x : Float) : Prop where
  finite : x.isFinite = true
  abs_le : |exact x| ≤ r

/-- Taking the absolute value is exact. -/
theorem exact_magnitude {x : Float} (h : x.isFinite = true) :
    (Scalar.magnitude x).isFinite = true ∧ exact (Scalar.magnitude x) = |exact x| := by
  have hlt : x < 0.0 ↔ exact x < 0 := by
    rw [lt_iff_exact h exact_zero.1, exact_zero.2]
  unfold Scalar.magnitude
  split
  next hneg =>
    rw [(exact_neg h).2, abs_of_neg (hlt.mp hneg)]
    exact ⟨(exact_neg h).1, rfl⟩
  next hneg => exact ⟨h, (abs_of_nonneg (not_lt.mp (mt hlt.mpr hneg))).symm⟩

section Bounded

variable {r : ℚ} (hr : r ≤ 2 ^ 100) {x y z : Float}

/-- What is rounded to `v` is `y`, if that has the value `v`. -/
theorem Rounds.within {v : ℚ} (h : Rounds x v) (hy : Within r y) (hv : exact y = v) :
    Within r x ∧ exact x = exact y := by
  have heq : exact x = exact y := (h.same y hy.finite hv).trans hv.symm
  exact ⟨⟨h.finite, heq ▸ hy.abs_le⟩, heq⟩

/-- The exact sum of two bounded floats is bounded. -/
theorem abs_exact_add_le (hx : Within r x) (hy : Within r y) : |exact x + exact y| ≤ 2 * r := by
  rw [abs_le]
  constructor <;> linarith [abs_le.mp hx.abs_le, abs_le.mp hy.abs_le]

/-- So is the exact difference. -/
theorem abs_exact_sub_le (hx : Within r x) (hy : Within r y) : |exact x - exact y| ≤ 2 * r := by
  rw [abs_le]
  constructor <;> linarith [abs_le.mp hx.abs_le, abs_le.mp hy.abs_le]

include hr

/-- Bounded floats are added with a correct rounding. -/
theorem within_add (hx : Within r x) (hy : Within r y) : Rounds (x + y) (exact x + exact y) :=
  rounds_add hx.finite hy.finite (lt_limit ((abs_exact_add_le hx hy).trans (by linarith)))

/-- The rounding of a sum is small against the bound. -/
theorem near_add (hr' : 1 ≤ r) (hx : Within r x) (hy : Within r y) :
    |exact (x + y) - (exact x + exact y)| ≤ r / 2 ^ 50 := by
  have hsum := abs_exact_add_le hx hy
  have hη := underflow_le
  linarith [(within_add hr hx hy).near]

/-- Adding zero is exact. -/
theorem exact_add_zero (hx : Within r x) (hz : Within r z) (hzero : exact z = 0) :
    Within r (x + z) ∧ exact (x + z) = exact x :=
  (within_add hr hx hz).within hx (by rw [hzero, add_zero])

/-- So is adding to zero. -/
theorem exact_zero_add (hx : Within r x) (hz : Within r z) (hzero : exact z = 0) :
    Within r (z + x) ∧ exact (z + x) = exact x :=
  (within_add hr hz hx).within hx (by rw [hzero, zero_add])

/-- Multiplying by 1 is exact. -/
theorem exact_one_mul (hx : Within r x) : Within r (1.0 * x) ∧ exact (1.0 * x) = exact x := by
  refine (rounds_mul exact_one.1 hx.finite (lt_limit ?_)).within hx ?_
  · rw [exact_one.2, one_mul]
    linarith [hx.abs_le]
  · rw [exact_one.2, one_mul]

/-- So is multiplying by -1. -/
theorem exact_neg_one_mul (hx : Within r x) :
    Within r (-1.0 * x) ∧ exact (-1.0 * x) = -exact x := by
  obtain ⟨hfinite, hneg⟩ := exact_neg hx.finite
  have hwithin : Within r (-x) := ⟨hfinite, by rw [hneg, abs_neg]; exact hx.abs_le⟩
  rw [← hneg]
  refine (rounds_mul exact_neg_one.1 hx.finite (lt_limit ?_)).within hwithin ?_
  · rw [exact_neg_one.2, neg_one_mul, abs_neg]
    linarith [hx.abs_le]
  · rw [hneg, exact_neg_one.2, neg_one_mul]

omit hr in
/-- So is multiplying by zero. -/
theorem exact_zero_mul (hr' : 0 ≤ r) (hx : Within r x) :
    Within r (0.0 * x) ∧ exact (0.0 * x) = 0 := by
  have hzero : Within r 0.0 := ⟨exact_zero.1, by rw [exact_zero.2, abs_zero]; exact hr'⟩
  have hround := (rounds_mul exact_zero.1 hx.finite (lt_limit (by
    rw [exact_zero.2, zero_mul, abs_zero]
    positivity))).within hzero (by rw [exact_zero.2, zero_mul])
  rwa [exact_zero.2] at hround

end Bounded

end Binary64

end ArtCanvas
