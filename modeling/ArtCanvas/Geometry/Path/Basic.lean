import ArtCanvas.Geometry.Affine

/-!
# Paths

An outline is a list of pen movements. Its segments are the curves that the pen draws, each written
as a cubic curve by four control points.

Movements, curves and what is computed with them belong to a library of curves, which is not part of
the exporter. `CurveLibrary` holds what the exporter calls there. It is a parameter of the whole
model, so what is proved without a word about its functions holds with any library in their place.
-/

namespace ArtCanvas

/-- One movement of the pen. -/
inductive PathElement where
  /-- Lifts the pen and puts it down at a point. -/
  | move (endpoint : Point Float)
  /-- A straight line. -/
  | line (endpoint : Point Float)
  /-- A quadratic curve with one control point. -/
  | quad (control endpoint : Point Float)
  /-- A cubic curve with two control points. -/
  | cubic (control₁ control₂ endpoint : Point Float)
  /-- A line back to where the pen was put down. -/
  | close
  deriving Repr, Inhabited

/-- An outline, as the movements that draw it. -/
abbrev Path := List PathElement

/-- A cubic curve by its end points and control points. -/
structure Cubic where
  /-- Where the curve starts. -/
  p0 : Point Float
  /-- The first control point. -/
  p1 : Point Float
  /-- The second control point. -/
  p2 : Point Float
  /-- Where the curve ends. -/
  p3 : Point Float
  deriving Repr, Inhabited

namespace PathElement

/-- The movement with all its points mapped. -/
def map (f : Point Float → Point Float) : PathElement → PathElement
  | .move p => .move (f p)
  | .line p => .line (f p)
  | .quad c p => .quad (f c) (f p)
  | .cubic c₁ c₂ p => .cubic (f c₁) (f c₂) (f p)
  | .close => .close

end PathElement

namespace Cubic

/-- A straight line as a cubic curve. -/
def ofLine (p q : Point Float) : Cubic :=
  ⟨p, p.lerp q (1.0 / 3.0), p.lerp q (2.0 / 3.0), q⟩

/-- A quadratic curve as a cubic curve. -/
def ofQuad (p c q : Point Float) : Cubic :=
  ⟨p, p + (c - p) * (2.0 / 3.0 : Float), q + (c - q) * (2.0 / 3.0 : Float), q⟩

/-- The point of the curve at parameter `t`. -/
def eval (c : Cubic) (t : Float) : Point Float :=
  let mt := 1.0 - t
  c.p0 * (mt * mt * mt) + (c.p1 * (mt * mt * 3.0) + (c.p2 * (mt * 3.0) + c.p3 * t) * t) * t

end Cubic

/-- The functions of a library of curves that are no plain arithmetic. -/
class CurveLibrary where
  /-- Reads path data, or says why it cannot be read. -/
  parse (text : String) : Except String Path
  /-- The length of a curve, up to an error of about `accuracy`. -/
  length (c : Cubic) (accuracy : Float) : Float
  /-- The parameter of a curve at which the length `target` is reached. -/
  atLength (c : Cubic) (target accuracy : Float) : Float

namespace Path

/-- The path with all its points mapped. -/
def transform (m : Affine Float) (path : Path) : Path :=
  path.map (PathElement.map m.apply)

/-- The curves that a pen draws that was put down at `start` and now stands at `last`. Closing an
outline draws a line only if the pen is not yet back. -/
def segmentsFrom (start last : Point Float) : Path → List Cubic
  | [] => []
  | .move p :: rest => segmentsFrom p p rest
  | .line p :: rest => .ofLine last p :: segmentsFrom start p rest
  | .quad c p :: rest => .ofQuad last c p :: segmentsFrom start p rest
  | .cubic c₁ c₂ p :: rest => ⟨last, c₁, c₂, p⟩ :: segmentsFrom start p rest
  | .close :: rest =>
    if last == start then segmentsFrom start last rest
    else .ofLine last start :: segmentsFrom start start rest

/-- The curves that the path draws. -/
def segments (path : Path) : List Cubic := segmentsFrom ⟨0.0, 0.0⟩ ⟨0.0, 0.0⟩ path

end Path

end ArtCanvas
