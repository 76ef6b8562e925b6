import ArtCanvas.Proofs.Geometry.Maps
import ArtCanvas.Proofs.Scalar.Within
import ArtCanvas.Function.Placement
import ArtCanvas.Script.Script

/-!
# Flips of binary numbers

All art is painted through a map that turns the vertical axis around and moves the origin. The four
numbers that are not the displacement are one, zero and minus one exactly, so such a map rounds only
where it adds the displacement.

* `Affine.IsFlip`: such a map, with `Box.isFlip_contentTransform` and
  `Placement.isFlip_localTransform` for the maps that are in use.
* `Affine.IsFlip.apply_map_exact`: what the map does without rounding.
* `Affine.IsFlip.apply_near`: what it does with rounding is near to this.
* `Box.exact_contentTransform`: the displacement of the map for the art of a box is exact.
-/

namespace ArtCanvas

open Decimal (exact)
open Binary64

/-- The map turns the vertical axis around and moves the origin. -/
structure Affine.IsFlip (m : Affine Float) : Prop where
  a : m.a = 1.0
  b : m.b = 0.0
  c : m.c = 0.0
  d : m.d = -1.0

namespace Affine

theorem isFlip_flip : (flip : Affine Float).IsFlip := ⟨rfl, rfl, rfl, rfl⟩

namespace IsFlip

variable {m : Affine Float} (h : m.IsFlip)

include h

/-- Moving the origin once more is a flip again. -/
theorem translate_mul (p : Point Float) : (translate p * m).IsFlip := by
  obtain ⟨ha, hb, hc, hd⟩ := h
  constructor
  · change 1.0 * m.a + 0.0 * m.b = 1.0
    rw [ha, hb]
    decide +kernel
  · change 0.0 * m.a + 1.0 * m.b = 0.0
    rw [ha, hb]
    decide +kernel
  · change 1.0 * m.c + 0.0 * m.d = 0.0
    rw [hc, hd]
    decide +kernel
  · change 0.0 * m.c + 1.0 * m.d = -1.0
    rw [hc, hd]
    decide +kernel

/-- Flips differ in their displacements only. -/
theorem eq_mk : m = ⟨1.0, 0.0, 0.0, -1.0, m.e, m.f⟩ := by
  obtain ⟨a, b, c, d, e, f⟩ := m
  obtain ⟨rfl, rfl, rfl, rfl⟩ := h
  rfl

/-- Without rounding, a flip moves points and turns them around. -/
theorem apply_map_exact (q : Point ℚ) :
    (m.map exact).apply q = ⟨q.x + exact m.e, exact m.f - q.y⟩ := by
  ext
  · simp [map, apply, h.a, h.c, exact_one.2, exact_zero.2]
  · simp only [map, apply, h.b, h.d, exact_neg_one.2, exact_zero.2]
    ring

/-- Multiplying by one and adding zero rounds nothing; so a flip rounds where it moves only. -/
theorem apply_near {r : ℚ} (hr : r ≤ 2 ^ 100) (hr' : 1 ≤ r) (he : Within r m.e)
    (hf : Within r m.f) {q : Point Float} (hx : Within r q.x) (hy : Within r q.y) :
    (m.apply q).x.isFinite ∧ (m.apply q).y.isFinite ∧
      |exact (m.apply q).x - (exact q.x + exact m.e)| ≤ r / 2 ^ 50 ∧
      |exact (m.apply q).y - (exact m.f - exact q.y)| ≤ r / 2 ^ 50 := by
  have hr₀ : 0 ≤ r := by linarith
  have hpx : (m.apply q).x = 1.0 * q.x + 0.0 * q.y + m.e := by rw [apply, h.a, h.c]
  have hpy : (m.apply q).y = 0.0 * q.x + -1.0 * q.y + m.f := by rw [apply, h.b, h.d]
  -- of the three operations for a coordinate, two are exact
  obtain ⟨hx₁, hx₂⟩ := exact_one_mul hr hx
  obtain ⟨hz₁, hz₂⟩ := exact_zero_mul hr₀ hy
  obtain ⟨hs₁, hs₂⟩ := exact_add_zero hr hx₁ hz₁ hz₂
  obtain ⟨hy₁, hy₂⟩ := exact_neg_one_mul hr hy
  obtain ⟨hw₁, hw₂⟩ := exact_zero_mul hr₀ hx
  obtain ⟨ht₁, ht₂⟩ := exact_zero_add hr hy₁ hw₁ hw₂
  rw [hpx, hpy]
  refine ⟨(within_add hr hs₁ he).finite, (within_add hr ht₁ hf).finite, ?_, ?_⟩
  · have hsum := near_add hr hr' hs₁ he
    rwa [hs₂, hx₂] at hsum
  · have hsum := near_add hr hr' ht₁ hf
    rwa [ht₂, hy₂, neg_add_eq_sub] at hsum

end IsFlip

end Affine

namespace Box

theorem isFlip_page (b : Box Float) : b.page.IsFlip :=
  Affine.isFlip_flip.translate_mul _

theorem isFlip_contentTransform (b : Box Float) : b.contentTransform.IsFlip := by
  unfold contentTransform
  split
  · exact Affine.isFlip_flip
  · exact b.isFlip_page

/-- The map for the art of a box takes its upper left corner to the origin, without rounding. -/
theorem exact_contentTransform {r : ℚ} (hr : r ≤ 2 ^ 100) (hr' : 0 ≤ r) {b : Box Float}
    (hleft : Within r b.left) (htop : Within r b.top) (hsome : b.isEmpty = false) (q : Point ℚ) :
    (b.contentTransform.map exact).apply q = ⟨q.x - exact b.left, exact b.top - q.y⟩ := by
  have hzero : Within r 0.0 := ⟨exact_zero.1, by rw [exact_zero.2, abs_zero]; exact hr'⟩
  obtain ⟨hfinite, hneg⟩ := exact_neg hleft.finite
  have hwithin : Within r (-b.left) := ⟨hfinite, by rw [hneg, abs_neg]; exact hleft.abs_le⟩
  -- both displacements are added to a sum of zeros
  have hsum : (1.0 * 0.0 + 0.0 * 0.0 : Float) = 0.0 := by decide +kernel
  have hsum' : (0.0 * 0.0 + 1.0 * 0.0 : Float) = 0.0 := by decide +kernel
  have he : exact b.page.e = -exact b.left := by
    change exact (1.0 * 0.0 + 0.0 * 0.0 + -b.left) = _
    rw [hsum, (exact_zero_add hr hwithin hzero exact_zero.2).2, hneg]
  have hf : exact b.page.f = exact b.top := by
    change exact (0.0 * 0.0 + 1.0 * 0.0 + b.top) = _
    rw [hsum', (exact_zero_add hr htop hzero exact_zero.2).2]
  rw [b.isFlip_contentTransform.apply_map_exact, contentTransform, if_neg (by simp [hsome]), he,
    hf, ← sub_eq_add_neg]

end Box

theorem Placement.isFlip_localTransform (p : Placement Float) (document : Box Float) :
    (p.localTransform document).IsFlip := by
  unfold localTransform
  split
  · exact document.isFlip_page.translate_mul _
  · exact document.isFlip_page

end ArtCanvas
