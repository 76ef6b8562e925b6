import ArtCanvas.Proofs.Decimal.Written
import ArtCanvas.Proofs.Scalar.Within
import ArtCanvas.Script.Outline

/-!
# Factors between sizes

The factor between the size of some art and the size that is wanted is a quotient of two rounded
differences. Applied to the exact size of the art, it gives the wanted size up to a small part of
the bound on the numbers. When it is written with three decimal places, what this rounds off is
multiplied by the size of the art.

* `IsFactor`: a factor that is as near as this.
* `factor_near`: the computed factor is.
* `IsFactor.near_thousandths`, `IsFactor.near_one`: how near it still is when it is written, or left
  out.
-/

namespace ArtCanvas

open Decimal (exact)
open Binary64

/-- A factor between sizes that are rounded, and rounded itself, is near the factor between the
sizes. -/
theorem abs_factor_mul_sub_le {w W w₁ W₁ q s η : ℚ} (hw : 0 ≤ w) (hW : 0 < W) (hη : 0 ≤ η)
    (hw₁ : |w₁ - w| ≤ w / 2 ^ 53 + η) (hW₁ : |W₁ - W| ≤ W / 2 ^ 52) (hq : q * W₁ = w₁)
    (hs : |s - q| ≤ |q| / 2 ^ 53 + η) : |s * W - w| ≤ w / 2 ^ 50 + (2 + W) * η := by
  have hQ : |q| * W ≤ 2 * w + 2 * η := by
    have hlow : W - W / 2 ^ 52 ≤ |W₁| := by
      linarith [abs_le.mp hW₁, le_abs_self W₁]
    have hhigh : |w₁| ≤ w + (w / 2 ^ 53 + η) := by
      rw [abs_le]
      constructor <;> linarith [abs_le.mp hw₁]
    have hmul := mul_le_mul_of_nonneg_left hlow (abs_nonneg q)
    rw [← abs_mul, hq] at hmul
    linarith
  -- the error of the wanted size, that of the size of the art, and that of the factor
  have hsplit : s * W - w = (w₁ - w) - q * (W₁ - W) + (s - q) * W := by
    rw [← hq]
    ring
  have hmiddle : |q * (W₁ - W)| ≤ |q| * W / 2 ^ 52 := by
    rw [abs_mul]
    calc |q| * |W₁ - W| ≤ |q| * (W / 2 ^ 52) := by gcongr
      _ = |q| * W / 2 ^ 52 := by ring
  have hlast : |(s - q) * W| ≤ |q| * W / 2 ^ 53 + η * W := by
    rw [abs_mul, abs_of_pos hW]
    calc |s - q| * W ≤ (|q| / 2 ^ 53 + η) * W := by gcongr
      _ = |q| * W / 2 ^ 53 + η * W := by ring
  rw [hsplit, abs_le]
  constructor <;> linarith [abs_le.mp hw₁, abs_le.mp hmiddle, abs_le.mp hlast]

/-- What is known of a factor that is computed from sizes. -/
structure IsFactor (r w W : ℚ) (s : Float) : Prop where
  within : Within (2 ^ 210) s
  near : |exact s * W - w| ≤ r / 2 ^ 48

section Factor

variable {r : ℚ} {lo hi lo' hi' : Float} (hr : 1 ≤ r) (hr' : r ≤ 2 ^ 100)
  (hlo' : Within r lo') (hhi' : Within r hi') (hW : 1 / r ≤ exact hi' - exact lo')

include hr hr' hlo' hhi' hW

/-- A size that is not too small is rounded by little of itself. -/
theorem size_near : (hi' - lo').isFinite = true ∧
    |exact (hi' - lo') - (exact hi' - exact lo')| ≤ (exact hi' - exact lo') / 2 ^ 52 := by
  have hsize := abs_exact_sub_le hhi' hlo'
  have hround := rounds_sub hhi'.finite hlo'.finite (lt_limit (hsize.trans (by linarith)))
  have hpos : 0 < 1 / r := by positivity
  have hleast : 1 / 2 ^ 100 ≤ 1 / r := by gcongr
  refine ⟨hround.finite, hround.near.trans ?_⟩
  rw [abs_of_pos (hpos.trans_le hW)]
  have hunderflow : underflow ≤ 1 / 2 ^ 100 / 2 ^ 53 := underflow_le.trans (by norm_num)
  linarith

/-- A factor between two sizes is near, whatever is between one and the bound. -/
theorem factor_near (hlo : Within r lo) (hhi : Within r hi) (hw : exact lo < exact hi) :
    IsFactor r (exact hi - exact lo) (exact hi' - exact lo') ((hi - lo) / (hi' - lo')) := by
  have hsize := abs_exact_sub_le hhi hlo
  have hround := rounds_sub hhi.finite hlo.finite (lt_limit (hsize.trans (by linarith)))
  obtain ⟨hfinite, hnear⟩ := size_near hr hr' hlo' hhi' hW
  have hW_pos : 0 < exact hi' - exact lo' := (one_div_pos.mpr (by linarith)).trans_le hW
  have hW_le : exact hi' - exact lo' ≤ 2 * r :=
    (le_abs_self _).trans (abs_exact_sub_le hhi' hlo')
  have hleast : 1 / 2 ^ 100 ≤ 1 / r := by gcongr
  have hη := underflow_le
  have hw_near := hround.near
  rw [abs_of_pos (sub_pos.mpr hw)] at hw_near
  have hW₁ : 1 / 2 ^ 101 ≤ exact (hi' - lo') := by
    linarith [abs_le.mp hnear]
  have hW₁_pos : 0 < exact (hi' - lo') := lt_of_lt_of_le (by positivity) hW₁
  -- the quotient is far from too large
  have hquotient : |exact (hi - lo) / exact (hi' - lo')| ≤ 2 ^ 204 := by
    rw [abs_div, abs_of_pos hW₁_pos, div_le_iff₀ hW₁_pos]
    have hw₁ : |exact (hi - lo)| ≤ 3 * 2 ^ 100 := by
      rw [abs_le]
      constructor <;> linarith [abs_le.mp hsize, abs_le.mp hw_near]
    linarith
  have hdiv := rounds_div hround.finite hfinite hW₁_pos.ne'
    (lt_limit (hquotient.trans (by norm_num)))
  refine ⟨⟨hdiv.finite, ?_⟩, ?_⟩
  · rw [abs_le]
    constructor <;> linarith [abs_le.mp hdiv.near, abs_le.mp hquotient]
  · refine (abs_factor_mul_sub_le (sub_pos.mpr hw).le hW_pos underflow_pos.le hw_near hnear
      (div_mul_cancel₀ _ hW₁_pos.ne') hdiv.near).trans ?_
    have hrest : (2 + (exact hi' - exact lo')) * underflow ≤ 4 * r * (1 / 2 ^ 250) := by
      have := underflow_pos
      gcongr
      linarith
    linarith [abs_le.mp hsize]

end Factor

theorem Binary64.exact_unitTolerance : (unitTolerance : Float).isFinite = true ∧
    exact unitTolerance ≤ 1 / 10 ^ 8 := by
  have hfields : Decimal.Dyadic.ofFloat unitTolerance = ⟨false, 4835703278458517, -82⟩ := by
    decide +kernel
  refine ⟨by decide +kernel, ?_⟩
  rw [exact, hfields]
  norm_num [Decimal.Dyadic.value]

namespace IsFactor

variable {r w W : ℚ} {s : Float} (hs : IsFactor r w W s) (hW : 0 ≤ W)

include hs hW

/-- What is used for a factor is wrong by its error for each unit of size. -/
theorem near_of_abs_sub_le {t : ℚ} (ht : |t - exact s| ≤ 1 / 2000) :
    |t * W - w| ≤ W / 2000 + r / 2 ^ 48 := by
  have herror : |(t - exact s) * W| ≤ W / 2000 := by
    rw [abs_mul, abs_of_nonneg hW]
    linarith [mul_le_mul_of_nonneg_right ht hW]
  rw [abs_le]
  constructor <;> linarith [abs_le.mp herror, abs_le.mp hs.near]

/-- A factor that is rounded to thousandths is wrong by half of one for each unit of size. -/
theorem near_thousandths : |Decimal.thousandths s * W - w| ≤ W / 2000 + r / 2 ^ 48 :=
  hs.near_of_abs_sub_le hW (Decimal.abs_thousandths_sub_exact s)

/-- A factor that is left out is so near to one that this is wrong by even less. -/
theorem near_one (hunit : ¬ unitTolerance < Scalar.magnitude (s - 1.0)) :
    |1 * W - w| ≤ W / 2000 + r / 2 ^ 48 := by
  have hsize := hs.within.abs_le
  have hround := rounds_sub hs.within.finite Binary64.exact_one.1 (lt_limit (by
    rw [Binary64.exact_one.2, abs_le]
    constructor <;> linarith [abs_le.mp hsize]))
  obtain ⟨hfinite, hmagnitude⟩ := Binary64.exact_magnitude hround.finite
  obtain ⟨htolerance, hsmall⟩ := Binary64.exact_unitTolerance
  rw [lt_iff_exact htolerance hfinite, hmagnitude, not_lt] at hunit
  have hnear := hround.near
  rw [Binary64.exact_one.2] at hnear
  -- the difference from one is rounded itself, by little of it
  have hone : |exact s - 1| ≤ 1 / 2000 := by
    have hη := underflow_le
    have habs : |exact s - 1| ≤ |exact (s - 1.0)| + (|exact s - 1| / 2 ^ 53 + underflow) := by
      rw [abs_le]
      constructor <;>
        linarith [abs_le.mp hnear, neg_abs_le (exact (s - 1.0)), le_abs_self (exact (s - 1.0))]
    linarith
  exact hs.near_of_abs_sub_le hW (abs_sub_comm 1 (exact s) ▸ hone)

end IsFactor

end ArtCanvas
