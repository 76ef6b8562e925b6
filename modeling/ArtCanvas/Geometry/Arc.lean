import ArtCanvas.Decimal.Binary64
import ArtCanvas.Geometry.Path.Basic

/-!
# Elliptic arcs as cubic curves

Path data may ask for an arc of an ellipse by its two end points. The arc is brought to its centre
form and cut into cubic curves, enough of them to stay near the ellipse.

Arcs are drawn by the library of curves, which is not part of the exporter. `EndpointArc` and
`CenterArc` stand for its arcs where the exporter is run, and follow its documentation; theorems see
of them only what `CurveLibrary` gives.
-/

namespace ArtCanvas

namespace Decimal

/-- The absolute value of `d` in units of `2 ^ place`, for a place not above its own. -/
def Dyadic.inUnits (d : Dyadic) (place : Int) : Nat :=
  d.mantissa * pow2 (d.exponent - place).toNat

/-- What is left of `x` after whole steps of size `y` toward zero, with the sign of `x`. It is
computed on the exact values, and a `Float` always holds the result exactly. There is no such number
for an infinite `x` or for steps of size zero. -/
def remainder (x y : Float) : Float :=
  if x.isFinite && y.isFinite && y != 0 then
    let d := Dyadic.ofFloat x
    let e := Dyadic.ofFloat y
    let place := min d.exponent e.exponent
    let left := d.inUnits place % e.inUnits place
    withSign d.negative (nearest (left * pow2 place.toNat) (pow2 (-place).toNat))
  else if x.isFinite && !y.isNaN && y != 0 then x
  else 0.0 / 0.0

end Decimal

/-- An arc by its end points, as path data writes it. -/
structure EndpointArc where
  /-- Where the arc starts. -/
  start : Point Float
  /-- Where the arc ends. -/
  stop : Point Float
  /-- The half axes of the ellipse. -/
  radii : Point Float
  /-- How far the ellipse is turned, in radians. -/
  rotation : Float
  /-- Whether the longer way round is meant. -/
  large : Bool
  /-- Whether the arc runs toward growing angles. -/
  sweep : Bool

/-- An arc by its centre. -/
structure CenterArc where
  /-- The centre of the ellipse. -/
  center : Point Float
  /-- The half axes of the ellipse. -/
  radii : Point Float
  /-- How far the ellipse is turned, in radians. -/
  rotation : Float
  /-- The angle at which the arc starts. -/
  startAngle : Float
  /-- How far the arc runs. -/
  sweepAngle : Float

/-- The distance that an arc's cubic curves may have from the ellipse. -/
def arcTolerance : Float := 0.1

namespace EndpointArc

/-- Whether the arc is to be drawn as a straight line: an axis is too short, or the ends agree. -/
def isStraight (arc : EndpointArc) : Bool :=
  arc.radii.x.abs <= 1e-5 || arc.radii.y.abs <= 1e-5 || arc.start == arc.stop

/-- The centre form. Radii that are too short to reach both ends are made just long enough. -/
def toCenter (arc : EndpointArc) : CenterArc :=
  let turned := Decimal.remainder arc.rotation (2.0 * halfTurn)
  let sin := turned.sin
  let cos := turned.cos
  let half : Point Float := (arc.start - arc.stop) * (0.5 : Float)
  let middle : Point Float := (arc.start + arc.stop) * (0.5 : Float)
  let p : Point Float := ⟨cos * half.x + sin * half.y, -sin * half.x + cos * half.y⟩
  let excess := p.x * p.x / (arc.radii.x.abs * arc.radii.x.abs)
    + p.y * p.y / (arc.radii.y.abs * arc.radii.y.abs)
  let stretch := if excess > 1.0 then excess.sqrt else 1.0
  let rx := arc.radii.x.abs * stretch
  let ry := arc.radii.y.abs * stretch
  let sum := rx * p.y * (rx * p.y) + ry * p.x * (ry * p.x)
  let sign := if arc.large == arc.sweep then -1.0 else 1.0
  let k := sign * ((rx * ry * (rx * ry) - sum) / sum).abs.sqrt
  let tc : Point Float := ⟨k * (rx * p.y) / ry, -k * (ry * p.x) / rx⟩
  let startAngle := Float.atan2 ((p.y - tc.y) / ry) ((p.x - tc.x) / rx)
  let endAngle := Float.atan2 ((-p.y - tc.y) / ry) ((-p.x - tc.x) / rx)
  let sweepAngle := Decimal.remainder (endAngle - startAngle) (2.0 * halfTurn)
  { center := ⟨cos * tc.x - sin * tc.y + middle.x, sin * tc.x + cos * tc.y + middle.y⟩
    radii := ⟨rx, ry⟩
    rotation := arc.rotation
    startAngle := startAngle
    sweepAngle :=
      if arc.sweep && sweepAngle < 0.0 then sweepAngle + 2.0 * halfTurn
      else if !arc.sweep && sweepAngle > 0.0 then sweepAngle - 2.0 * halfTurn
      else sweepAngle }

end EndpointArc

namespace CenterArc

/-- The point of the turned ellipse at an angle, seen from its centre. -/
def sample (arc : CenterArc) (angle : Float) : Point Float :=
  let u := arc.radii.x * angle.cos
  let v := arc.radii.y * angle.sin
  let sin := arc.rotation.sin
  let cos := arc.rotation.cos
  ⟨u * cos - v * sin, u * sin + v * cos⟩

/-- `n` curves of width `step` each, from `angle` on; `arm` scales the control points. -/
def pieces (arc : CenterArc) (step arm : Float) : Nat → Float → Path
  | 0, _ => []
  | n + 1, angle =>
    let next := angle + step
    let p0 := arc.sample angle
    let p3 := arc.sample next
    let p1 := p0 + arm * arc.sample (angle + halfTurn / 2.0)
    let p2 := p3 - arm * arc.sample (next + halfTurn / 2.0)
    .cubic (arc.center + p1) (arc.center + p2) (arc.center + p3) :: pieces arc step arm n next

/-- The arc as cubic curves. -/
def toCubics (arc : CenterArc) : Path :=
  let sign := if arc.sweepAngle.toBits >>> 63 == 0 then 1.0 else -1.0
  let scaled := Scalar.greater arc.radii.x arc.radii.y / arcTolerance
  let fineness := Scalar.greater ((1.1163 * scaled).pow (1.0 / 6.0)) 3.999999
  let count := (fineness * arc.sweepAngle.abs * (1.0 / (2.0 * halfTurn))).ceil
  let step := arc.sweepAngle / count
  let arm := 4.0 / 3.0 * (0.25 * step).abs.tan * sign
  arc.pieces step arm (Scalar.toNat count) arc.startAngle

end CenterArc

/-- An arc as the path elements that draw it. -/
def EndpointArc.toPath (arc : EndpointArc) : Path :=
  if arc.isStraight then [.line arc.stop] else arc.toCenter.toCubics

end ArtCanvas
