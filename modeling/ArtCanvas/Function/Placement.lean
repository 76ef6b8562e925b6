import ArtCanvas.Geometry.Box

/-!
# Where a draw function puts its art

A draw function may move the origin of its art to an anchor point, a point of its own box given by
fractions of the width and the height. The script first moves to where the anchor belongs on the
page and then paints art whose anchor is at the origin, so that turning and scaling happen around
it. The formulas hold for any type of numbers.
-/

namespace ArtCanvas

/-- What decides where art is painted. -/
structure Placement (α : Type) where
  /-- The box of the art. -/
  bounds : Box α
  /-- Whether an origin was chosen. -/
  originSet : Bool
  /-- The chosen origin, as a fraction of the width from the left. -/
  originH : α
  /-- The chosen origin, as a fraction of the height from the top. -/
  originV : α
  /-- Whether the function follows a path. -/
  follows : Bool
  deriving Repr

namespace Placement

variable {α : Type} [Scalar α]

/-- Where the point with the fractions `h` and `v` of the box lies on the page. -/
def anchorOffset (p : Placement α) (document : Box α) (h v : α) : Point α :=
  let left := p.bounds.left - document.left
  let top := p.bounds.top - document.top
  ⟨left + p.bounds.width * h, -top + p.bounds.height * v⟩

/-- The displacement that brings the chosen origin to its place on the page. -/
def reposition (p : Placement α) (document : Box α) : Option (Point α) :=
  if p.originSet then some (p.anchorOffset document p.originH p.originV) else none

/-- The anchor point: the chosen origin, or the centre of art that follows a path. -/
def anchor (p : Placement α) : Option (α × α) :=
  if p.originSet then some (p.originH, p.originV)
  else if p.follows then some (0.5, 0.5)
  else none

/-- The map from the document to the space in which the art is painted: the page, moved so that the
anchor point is at the origin. -/
def localTransform (p : Placement α) (document : Box α) : Affine α :=
  match p.anchor with
  | some (h, v) => Affine.translate (-p.anchorOffset document h v) * document.page
  | none => document.page

end Placement

end ArtCanvas
