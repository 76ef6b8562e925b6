import ArtCanvas.Geometry.Affine

/-!
# Boxes

Art is measured by boxes with horizontal and vertical edges, in a plane whose vertical axis points
up. A box whose edges are in the wrong order is empty, and `Box.empty` is the one that adds nothing
to a union.
-/

namespace ArtCanvas

/-- A box given by its four edges. -/
structure Box (α : Type) where
  /-- The left edge. -/
  left : α
  /-- The upper edge. -/
  top : α
  /-- The right edge. -/
  right : α
  /-- The lower edge. -/
  bottom : α
  deriving Repr, Inhabited

/-- A box given by two opposite corners. -/
structure Corners (α : Type) where
  /-- The horizontal coordinate of the first corner. -/
  x0 : α
  /-- The vertical coordinate of the first corner. -/
  y0 : α
  /-- The horizontal coordinate of the second corner. -/
  x1 : α
  /-- The vertical coordinate of the second corner. -/
  y1 : α
  deriving Repr, Inhabited

namespace Box

section Generic

variable {α : Type} [Scalar α]

/-- The smallest box around two boxes. -/
def union (b c : Box α) : Box α :=
  { left := Scalar.lesser b.left c.left
    top := Scalar.greater b.top c.top
    right := Scalar.greater b.right c.right
    bottom := Scalar.lesser b.bottom c.bottom }

/-- Whether the edges are in order, so that the box has at least one point. -/
def Occupied (b : Box α) : Prop := b.left ≤ b.right ∧ b.bottom ≤ b.top

/-- Whether a box holds something is found out by comparing its edges. -/
instance (b : Box α) : Decidable b.Occupied := by
  unfold Occupied
  infer_instance

/-- Whether the box has no point. -/
def isEmpty (b : Box α) : Bool := !decide b.Occupied

/-- The distance from the left to the right edge. -/
def width (b : Box α) : α := b.right - b.left

/-- The distance from the lower to the upper edge. -/
def height (b : Box α) : α := b.top - b.bottom

/-- Width and height as they are written down: an empty box has neither. -/
def extent (b : Box α) : α × α :=
  if b.isEmpty then (0.0, 0.0) else (b.width, b.height)

/-- The lower left and the upper right corner. -/
def corners (b : Box α) : Corners α := ⟨b.left, b.bottom, b.right, b.top⟩

/-- The box between two opposite corners, in any order. -/
def ofCorners (c : Corners α) : Box α :=
  { left := Scalar.lesser c.x0 c.x1
    top := Scalar.greater c.y0 c.y1
    right := Scalar.greater c.x0 c.x1
    bottom := Scalar.lesser c.y0 c.y1 }

/-- The map that puts the upper left corner of the box at the origin and turns the vertical axis
around. -/
def page (b : Box α) : Affine α := Affine.translate ⟨-b.left, b.top⟩ * Affine.flip

end Generic

/-- The box with edges at infinity, all in the wrong order: the union of no boxes. -/
def empty : Box Float :=
  { left := Float.ofBits 0x7FF0000000000000
    top := Float.ofBits 0xFFF0000000000000
    right := Float.ofBits 0xFFF0000000000000
    bottom := Float.ofBits 0x7FF0000000000000 }

/-- Whether all four edges are finite. -/
def isFinite (b : Box Float) : Bool :=
  b.left.isFinite && b.top.isFinite && b.right.isFinite && b.bottom.isFinite

end Box

end ArtCanvas
