import Mathlib.Order.Interval.Set.Basic
import Mathlib.Tactic.Linarith
import Mathlib.Tactic.Ring
import ArtCanvas.Proofs.Scalar.Exact
import ArtCanvas.Easing

/-!
# The shapes of a curve

A curve that is slow at its start gives two others: seen from its end it is slow there, and put
together from both it is slow at both ends. What holds of the first curve holds of these two as
well, whatever its formula is.

* `Shape.reversed`, `Shape.mirrored`, `Shape.bend`: what the shapes make of a curve.
* `Easing.Spans`: a curve that leads from 0 to 1 and stays between them.
* `Easing.Spans.bend`, `Shape.monotoneOn_bend`: all shapes of such a curve do, and all shapes of a
  curve that never goes back never do.
* `Shape.mirrored_add_mirrored`: the two halves of the third shape are symmetric.
-/

namespace ArtCanvas

open Set (Icc)

variable {α : Type} [ExactScalar α] {f : α → α} {t : α}

namespace Shape

/-- A curve seen from its end: time and value are both counted back from 1. -/
def reversed (f : α → α) (t : α) : α := 1 - f (1 - t)

/-- A curve through the first half of the time and its reversal through the second half, both at
half their size. -/
def mirrored (f : α → α) (t : α) : α :=
  if t < 1 / 2 then f (2 * t) / 2 else 1 - f (2 * (1 - t)) / 2

/-- What a shape makes of a curve that is slow at its start. -/
def bend : Shape → (α → α) → α → α
  | .easeIn, f => f
  | .easeOut, f => reversed f
  | .easeInOut, f => mirrored f

/-- Reversing twice gives the curve back. -/
theorem reversed_reversed (f : α → α) : reversed (reversed f) = f := by
  funext t
  simp only [reversed, sub_sub_cancel]

/-- The first half of a mirrored curve runs twice as fast. -/
theorem mirrored_of_lt (ht : t < 1 / 2) : mirrored f t = f (2 * t) / 2 := if_pos ht

/-- The second half is the first one, turned around. -/
theorem mirrored_of_le (ht : 1 / 2 ≤ t) : mirrored f t = 1 - f (2 * (1 - t)) / 2 :=
  if_neg ht.not_gt

/-- The second half goes the way of the first one back. -/
theorem mirrored_add_mirrored (hfinish : f 1 = 1) (t : α) :
    mirrored f t + mirrored f (1 - t) = 1 := by
  rcases lt_trichotomy t (1 / 2) with ht | rfl | ht
  · rw [mirrored_of_lt ht, mirrored_of_le (by linarith), sub_sub_cancel]
    exact add_sub_cancel _ _
  · -- both sides meet in the middle, where the curve is at its end
    have htime : 2 * (1 - 1 / 2) = (1 : α) := by norm_num
    rw [sub_half, mirrored_of_le le_rfl, htime, hfinish]
    norm_num
  · rw [mirrored_of_le ht.le, mirrored_of_lt (by linarith)]
    exact sub_add_cancel _ _

end Shape

/-! ### The unit interval -/

section UnitInterval

/-- Time that runs back stays between 0 and 1. -/
theorem one_sub_mem_Icc (ht : t ∈ Icc (0 : α) 1) : 1 - t ∈ Icc (0 : α) 1 :=
  ⟨sub_nonneg.mpr ht.2, sub_le_self 1 ht.1⟩

/-- Time that runs twice as fast does so in the first half. -/
theorem two_mul_mem_Icc (ht : t ∈ Icc (0 : α) 1) (hhalf : t < 1 / 2) :
    2 * t ∈ Icc (0 : α) 1 :=
  ⟨by linarith [ht.1], by linarith⟩

/-- In the second half it does so when it runs back. -/
theorem two_mul_one_sub_mem_Icc (ht : t ∈ Icc (0 : α) 1) (hhalf : 1 / 2 ≤ t) :
    2 * (1 - t) ∈ Icc (0 : α) 1 :=
  ⟨by linarith [ht.2], by linarith⟩

end UnitInterval

/-- A curve leads from 0 to 1 in the time from 0 to 1 and stays between them. -/
structure Easing.Spans (f : α → α) : Prop where
  /-- It starts at 0. -/
  start : f 0 = 0
  /-- It ends at 1. -/
  finish : f 1 = 1
  /-- It is nowhere below 0 or above 1. -/
  mapsTo : Set.MapsTo f (Icc 0 1) (Icc 0 1)

namespace Easing.Spans

open Shape

/-- A curve that never goes back stays between its ends. -/
theorem of_monotoneOn (hstart : f 0 = 0) (hfinish : f 1 = 1) (hf : MonotoneOn f (Icc 0 1)) :
    Spans f where
  start := hstart
  finish := hfinish
  mapsTo t ht := by
    have hzero : (0 : α) ∈ Icc (0 : α) 1 := ⟨le_rfl, zero_le_one⟩
    have hone : (1 : α) ∈ Icc (0 : α) 1 := ⟨zero_le_one, le_rfl⟩
    exact ⟨hstart ▸ hf hzero ht ht.1, hfinish ▸ hf ht hone ht.2⟩

/-- A reversed curve leads from 0 to 1 as well. -/
protected theorem reversed (h : Spans f) : Spans (reversed f) where
  start := by rw [reversed, sub_zero, h.finish, sub_self]
  finish := by rw [reversed, sub_self, h.start, sub_zero]
  mapsTo _ ht := one_sub_mem_Icc (h.mapsTo (one_sub_mem_Icc ht))

/-- The first half of a mirrored curve stays in the lower half. -/
theorem mirrored_le_half (h : Spans f) (ht : t ∈ Icc (0 : α) 1) (hhalf : t < 1 / 2) :
    0 ≤ mirrored f t ∧ mirrored f t ≤ 1 / 2 := by
  obtain ⟨hnonneg, hle⟩ := h.mapsTo (two_mul_mem_Icc ht hhalf)
  rw [mirrored_of_lt hhalf]
  constructor <;> linarith

/-- The second half of a mirrored curve stays in the upper half. -/
theorem half_le_mirrored (h : Spans f) (ht : t ∈ Icc (0 : α) 1) (hhalf : 1 / 2 ≤ t) :
    1 / 2 ≤ mirrored f t ∧ mirrored f t ≤ 1 := by
  obtain ⟨hnonneg, hle⟩ := h.mapsTo (two_mul_one_sub_mem_Icc ht hhalf)
  rw [mirrored_of_le hhalf]
  constructor <;> linarith

/-- So does a mirrored one. -/
protected theorem mirrored (h : Spans f) : Spans (mirrored f) where
  start := by rw [mirrored_of_lt (by norm_num), mul_zero, h.start, zero_div]
  finish := by
    rw [mirrored_of_le (by norm_num), sub_self, mul_zero, h.start, zero_div, sub_zero]
  mapsTo t ht := by
    rcases lt_or_ge t (1 / 2) with hhalf | hhalf
    · obtain ⟨hnonneg, hle⟩ := h.mirrored_le_half ht hhalf
      exact ⟨hnonneg, by linarith⟩
    · obtain ⟨hge, hle⟩ := h.half_le_mirrored ht hhalf
      exact ⟨by linarith, hle⟩

/-- Every shape of the curve leads from 0 to 1 and stays between them. -/
theorem bend (h : Spans f) (shape : Shape) : Spans (shape.bend f) := by
  cases shape with
  | easeIn => exact h
  | easeOut => exact h.reversed
  | easeInOut => exact h.mirrored

end Easing.Spans

namespace Shape

open Easing (Spans)

/-- Reversing keeps a curve from going back. -/
theorem monotoneOn_reversed (hf : MonotoneOn f (Icc 0 1)) :
    MonotoneOn (reversed f) (Icc 0 1) := fun _ hs _ ht hle =>
  sub_le_sub_left (hf (one_sub_mem_Icc ht) (one_sub_mem_Icc hs) (sub_le_sub_left hle 1)) 1

/-- So does mirroring. -/
theorem monotoneOn_mirrored (h : Spans f) (hf : MonotoneOn f (Icc 0 1)) :
    MonotoneOn (mirrored f) (Icc 0 1) := by
  intro s hs t ht hle
  rcases lt_or_ge t (1 / 2) with hthalf | hthalf
  · have hshalf : s < 1 / 2 := hle.trans_lt hthalf
    have hf' := hf (two_mul_mem_Icc hs hshalf) (two_mul_mem_Icc ht hthalf) (by linarith)
    rw [mirrored_of_lt hshalf, mirrored_of_lt hthalf]
    linarith
  · rcases lt_or_ge s (1 / 2) with hshalf | hshalf
    · -- the two times lie on different sides of the middle
      exact (h.mirrored_le_half hs hshalf).2.trans (h.half_le_mirrored ht hthalf).1
    · have hf' := hf (two_mul_one_sub_mem_Icc ht hthalf) (two_mul_one_sub_mem_Icc hs hshalf)
        (by linarith)
      rw [mirrored_of_le hshalf, mirrored_of_le hthalf]
      linarith

/-- No shape of a curve that never goes back goes back. -/
theorem monotoneOn_bend (h : Spans f) (hf : MonotoneOn f (Icc 0 1)) (shape : Shape) :
    MonotoneOn (shape.bend f) (Icc 0 1) := by
  cases shape with
  | easeIn => exact hf
  | easeOut => exact monotoneOn_reversed hf
  | easeInOut => exact monotoneOn_mirrored h hf

end Shape

end ArtCanvas
