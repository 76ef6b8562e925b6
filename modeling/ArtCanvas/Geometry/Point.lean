import ArtCanvas.Scalar

/-!
# Points of the plane

A point doubles as a displacement: points are added, subtracted and scaled coordinate by coordinate.
-/

namespace ArtCanvas

/-- A point, or the displacement that leads to it from the origin. -/
@[ext]
structure Point (α : Type) where
  /-- The horizontal coordinate. -/
  x : α
  /-- The vertical coordinate. -/
  y : α
  deriving DecidableEq, BEq, Repr, Inhabited

namespace Point

variable {α : Type} [Scalar α]

/-- Points are added by their coordinates. -/
instance : Add (Point α) := ⟨fun p q => ⟨p.x + q.x, p.y + q.y⟩⟩

/-- So are they subtracted. -/
instance : Sub (Point α) := ⟨fun p q => ⟨p.x - q.x, p.y - q.y⟩⟩

/-- The opposite point has the opposite coordinates. -/
instance : Neg (Point α) := ⟨fun p => ⟨-p.x, -p.y⟩⟩

/-- A point is multiplied by a number on its right. -/
instance : HMul (Point α) α (Point α) := ⟨fun p s => ⟨p.x * s, p.y * s⟩⟩

/-- So is it by a number on its left. -/
instance : HMul α (Point α) (Point α) := ⟨fun s p => ⟨s * p.x, s * p.y⟩⟩

@[simp] theorem add_x (p q : Point α) : (p + q).x = p.x + q.x := rfl

@[simp] theorem add_y (p q : Point α) : (p + q).y = p.y + q.y := rfl

@[simp] theorem sub_x (p q : Point α) : (p - q).x = p.x - q.x := rfl

@[simp] theorem sub_y (p q : Point α) : (p - q).y = p.y - q.y := rfl

@[simp] theorem neg_x (p : Point α) : (-p).x = -p.x := rfl

@[simp] theorem neg_y (p : Point α) : (-p).y = -p.y := rfl

/-- The point that lies the part `t` of the way from `p` to `q`. -/
def lerp (p q : Point α) (t : α) : Point α := p + t * (q - p)

/-- The square of the distance from the origin. -/
def normSq (p : Point α) : α := p.x * p.x + p.y * p.y

/-- The distance from the origin. -/
def norm (p : Point Float) : Float := p.normSq.sqrt

end Point

end ArtCanvas
