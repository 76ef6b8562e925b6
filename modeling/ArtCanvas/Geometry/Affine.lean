import ArtCanvas.Geometry.Point

/-!
# Affine maps of the plane

Art is measured with the vertical axis pointing up and painted with the axis pointing down; the maps
between the two are affine. `f * g` is the map that applies `g` first.
-/

namespace ArtCanvas

/-- The map that sends `(x, y)` to `(a x + c y + e, b x + d y + f)`. -/
structure Affine (α : Type) where
  /-- The share of `x` in the new `x`. -/
  a : α
  /-- The share of `x` in the new `y`. -/
  b : α
  /-- The share of `y` in the new `x`. -/
  c : α
  /-- The share of `y` in the new `y`. -/
  d : α
  /-- The displacement along `x`. -/
  e : α
  /-- The displacement along `y`. -/
  f : α
  deriving Repr, Inhabited

namespace Affine

variable {α : Type} [Scalar α]

/-- The map that moves nothing. -/
def identity : Affine α := ⟨1.0, 0.0, 0.0, 1.0, 0.0, 0.0⟩

/-- The image of a point. -/
def apply (m : Affine α) (p : Point α) : Point α :=
  ⟨m.a * p.x + m.c * p.y + m.e, m.b * p.x + m.d * p.y + m.f⟩

/-- One map after another. -/
def comp (m n : Affine α) : Affine α :=
  ⟨m.a * n.a + m.c * n.b, m.b * n.a + m.d * n.b, m.a * n.c + m.c * n.d, m.b * n.c + m.d * n.d,
    m.a * n.e + m.c * n.f + m.e, m.b * n.e + m.d * n.f + m.f⟩

/-- The product of two maps carries out the second one first. -/
instance : Mul (Affine α) := ⟨comp⟩

/-- The map that moves every point by `p`. -/
def translate (p : Point α) : Affine α := ⟨1.0, 0.0, 0.0, 1.0, p.x, p.y⟩

/-- The map that scales the two coordinates. -/
def scale (x y : α) : Affine α := ⟨x, 0.0, 0.0, y, 0.0, 0.0⟩

/-- The map that turns the vertical axis around. -/
def flip : Affine α := scale 1.0 (-1.0)

@[simp] theorem mul_eq_comp (m n : Affine α) : m * n = comp m n := rfl

end Affine

end ArtCanvas
