import ArtCanvas.Outcome
import ArtCanvas.Scalar
import ArtCanvas.Text.Blank

/-!
# Easing curves

An easing curve maps the time within one run of a clock, from 0 to 1, to the part of its range that
is covered. Most curves come in three shapes: slow at the start, slow at the end, or slow at both.

The curves made of arithmetic alone are written for any type of numbers (`Easing.arithmetic?`). The
others need `Float`.
-/

namespace ArtCanvas

/-- The curves that come in three shapes. -/
inductive Curve where
  | sine
  | quad
  | cubic
  | quart
  | quint
  | circ
  | expo
  | bounce
  deriving DecidableEq, Repr

/-- Where a curve is slow. -/
inductive Shape where
  /-- At the start. -/
  | easeIn
  /-- At the end. -/
  | easeOut
  /-- At both ends. -/
  | easeInOut
  deriving DecidableEq, Repr

/-- An easing curve. -/
inductive Easing where
  /-- Even progress. -/
  | linear
  /-- A curve in one of its shapes. -/
  | ease (curve : Curve) (shape : Shape)
  /-- A jump at the start. -/
  | zeroStep
  /-- A jump in the middle. -/
  | halfStep
  /-- A jump at the end. -/
  | oneStep
  /-- Sixty even jumps. -/
  | clockTick
  deriving DecidableEq, Repr

namespace Curve

/-- All curves, in the order of the timing table. -/
def all : List Curve := [.sine, .quad, .cubic, .quart, .quint, .circ, .expo, .bounce]

/-- The name of the curve in small letters. -/
def name : Curve → String
  | .sine => "sine"
  | .quad => "quad"
  | .cubic => "cubic"
  | .quart => "quart"
  | .quint => "quint"
  | .circ => "circ"
  | .expo => "expo"
  | .bounce => "bounce"

end Curve

namespace Shape

/-- All shapes, in the order of the timing table. -/
def all : List Shape := [.easeIn, .easeOut, .easeInOut]

/-- The ending that names the shape. -/
def name : Shape → String
  | .easeIn => "EaseIn"
  | .easeOut => "EaseOut"
  | .easeInOut => "EaseInOut"

end Shape

namespace Easing

/-- All easing curves, in the order of the timing table. -/
def all : List Easing :=
  [.linear] ++ Curve.all.flatMap (fun curve => Shape.all.map (.ease curve))
    ++ [.zeroStep, .halfStep, .oneStep, .clockTick]

/-- The name of the curve in the timing table. -/
def name : Easing → String
  | .linear => "linear"
  | .ease curve shape => curve.name ++ shape.name
  | .zeroStep => "zeroStep"
  | .halfStep => "halfStep"
  | .oneStep => "oneStep"
  | .clockTick => "clockTick"

/-- The curve that a text names: capitals, hyphens, underscores and spaces do not matter. -/
def parse? (text : String) : Option Easing :=
  let wanted := (text.toList.filter fun c => c ∉ ['-', '_', ' ']).map Char.toLower
  all.find? fun easing => (easing.name.toList.map Char.toLower) == wanted

/-- The curve that a text names, or the failure that says there is none. -/
def parse (text : String) : Except Failure Easing :=
  match parse? text with
  | some easing => .ok easing
  | none => .error (.invalid ("unknown timing function '" ++ text ++ "'"))

section Generic

variable {α : Type} [Scalar α]

/-- The third power. -/
def cube (u : α) : α := u * (u * u)

/-- The fourth power. -/
def fourth (u : α) : α := u * u * (u * u)

/-- The fifth power. -/
def fifth (u : α) : α := u * (u * u * (u * u))

/-- A curve that is slow at both ends: time is doubled, the first half follows `first` and the
second half follows `second` after a shift, and both are halved. -/
def split (first second : α → α) (shift : α) (t : α) : α :=
  let u := t * 2.0
  if u < 1.0 then 0.5 * first u else 0.5 * second (u + shift)

/-- One arc of a bounce: a parabola around `center` that is lifted to `lift`. -/
def bounceArc (center lift t : α) : α :=
  let u := t - center / 2.75
  7.5625 * u * u + lift

/-- Four arcs of a ball that bounces to rest at 1. -/
def bounceOut (t : α) : α :=
  if t < 1.0 / 2.75 then 7.5625 * t * t
  else if t < 2.0 / 2.75 then bounceArc 1.5 0.75 t
  else if t < 2.5 / 2.75 then bounceArc 2.25 0.9375 t
  else bounceArc 2.625 0.984375 t

/-- The curves that are made of arithmetic alone, on times from 0 to 1. -/
def arithmetic? : Easing → Option (α → α)
  | .linear => some id
  | .ease .quad .easeIn => some fun t => t * t
  | .ease .quad .easeOut => some fun t => -t * (t - 2.0)
  | .ease .quad .easeInOut => some (split (fun u => u * u) (fun u => -(u * (u - 2.0) - 1.0)) (-1.0))
  | .ease .cubic .easeIn => some cube
  | .ease .cubic .easeOut => some fun t => cube (t - 1.0) + 1.0
  | .ease .cubic .easeInOut => some (split cube (fun u => cube u + 2.0) (-2.0))
  | .ease .quart .easeIn => some fourth
  | .ease .quart .easeOut => some fun t => -(fourth (t - 1.0) - 1.0)
  | .ease .quart .easeInOut => some (split fourth (fun u => -(fourth u - 2.0)) (-2.0))
  | .ease .quint .easeIn => some fifth
  | .ease .quint .easeOut => some fun t => fifth (t - 1.0) + 1.0
  | .ease .quint .easeInOut => some (split fifth (fun u => fifth u + 2.0) (-2.0))
  | .ease .bounce .easeIn => some fun t => 1.0 - bounceOut (1.0 - t)
  | .ease .bounce .easeOut => some bounceOut
  | .ease .bounce .easeInOut => some fun t =>
    if t < 0.5 then (1.0 - bounceOut (1.0 - 2.0 * t)) * 0.5
    else bounceOut (2.0 * t - 1.0) * 0.5 + 0.5
  | .zeroStep => some fun t => if t ≤ 0.0 then 0.0 else 1.0
  | .halfStep => some fun t => if t < 0.5 then 0.0 else 1.0
  | .oneStep => some fun t => if 1.0 ≤ t then 1.0 else 0.0
  | .clockTick => some fun t => Scalar.floor (t * 60.0) / 60.0
  | .ease .sine _ | .ease .circ _ | .ease .expo _ => none

/-- The value of a curve at any time: times outside of 0 to 1 count as the nearer end. Curves that
are not made of arithmetic alone are taken from `other`. -/
def evalWith (other : Easing → α → α) (easing : Easing) (t : α) : α :=
  let t := Scalar.clamp t 0.0 1.0
  match (easing.arithmetic? : Option (α → α)) with
  | some f => f t
  | none => other easing t

end Generic

/-- The curves made of sines, circles and powers, on times from 0 to 1. -/
def transcendental : Easing → Float → Float
  | .ease .sine .easeIn, t => 1.0 - (t * halfTurn / 2.0).cos
  | .ease .sine .easeOut, t => (t * halfTurn / 2.0).sin
  | .ease .sine .easeInOut, t => -0.5 * ((halfTurn * t).cos - 1.0)
  | .ease .circ .easeIn, t => -((1.0 - t * t).sqrt - 1.0)
  | .ease .circ .easeOut, t => (1.0 - (t - 1.0) * (t - 1.0)).sqrt
  | .ease .circ .easeInOut, t =>
    split (fun u => -((1.0 - u * u).sqrt - 1.0)) (fun u => (1.0 - u * u).sqrt + 1.0) (-2.0) t
  | .ease .expo .easeIn, t => if t == 0.0 then 0.0 else Float.pow 2.0 (10.0 * (t - 1.0))
  | .ease .expo .easeOut, t => if t == 1.0 then 1.0 else 1.0 - Float.pow 2.0 (-10.0 * t)
  | .ease .expo .easeInOut, t =>
    if t == 0.0 || t == 1.0 then t
    else if t < 0.5 then 0.5 * Float.pow 2.0 (10.0 * (2.0 * t - 1.0))
    else 0.5 * (2.0 - Float.pow 2.0 (-10.0 * (2.0 * t - 1.0)))
  | _, t => t

/-- The value of a curve at any time. -/
def apply (easing : Easing) (t : Float) : Float := easing.evalWith transcendental t

end Easing

end ArtCanvas
