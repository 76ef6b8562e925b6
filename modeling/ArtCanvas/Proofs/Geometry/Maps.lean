import Mathlib.Tactic.Ring
import ArtCanvas.Geometry.Box
import ArtCanvas.Proofs.Scalar.Exact

/-!
# What affine maps do to points

Over exact numbers, the product of two maps is one after the other, and the maps of the library are
what their names say.

* `Affine.map`, `Box.map`: maps and boxes with their numbers read as others.
* `Affine.apply_comp`: one map after another.
* `Affine.apply_translate`, `Affine.apply_scale`, `Affine.apply_flip`: the simple maps.
* `Box.apply_page`: the upper left corner of a box goes to the origin, and up becomes down.
-/

namespace ArtCanvas

/-- A box with its numbers read as others. -/
def Box.map {α β : Type} (read : α → β) (b : Box α) : Box β :=
  { left := read b.left, top := read b.top, right := read b.right, bottom := read b.bottom }

/-- A map with its numbers read as others. -/
def Affine.map {α β : Type} (read : α → β) (m : Affine α) : Affine β :=
  ⟨read m.a, read m.b, read m.c, read m.d, read m.e, read m.f⟩

variable {α : Type} [ExactScalar α]

namespace Affine

@[simp]
theorem apply_comp (m n : Affine α) (p : Point α) : (comp m n).apply p = m.apply (n.apply p) := by
  ext
  · simp only [comp, apply]
    ring
  · simp only [comp, apply]
    ring

theorem comp_assoc (m n k : Affine α) : (m * n) * k = m * (n * k) := by
  simp only [mul_eq_comp, comp, mk.injEq]
  refine ⟨?_, ?_, ?_, ?_, ?_, ?_⟩ <;> ring

@[simp]
theorem apply_translate (d p : Point α) : (translate d).apply p = p + d := by
  ext <;> norm_num [translate, apply]

@[simp]
theorem apply_scale (x y : α) (p : Point α) : (scale x y).apply p = ⟨x * p.x, y * p.y⟩ := by
  ext <;> norm_num [scale, apply]

@[simp]
theorem apply_flip (p : Point α) : flip.apply p = ⟨p.x, -p.y⟩ := by
  rw [flip, apply_scale]
  ext <;> norm_num

end Affine

/-- The page of a box is measured from its upper left corner, to the right and down. -/
@[simp]
theorem Box.apply_page (b : Box α) (p : Point α) :
    b.page.apply p = ⟨p.x - b.left, b.top - p.y⟩ := by
  rw [page, Affine.mul_eq_comp, Affine.apply_comp, Affine.apply_flip, Affine.apply_translate]
  ext
  · exact (sub_eq_add_neg p.x b.left).symm
  · exact neg_add_eq_sub p.y b.top

end ArtCanvas
