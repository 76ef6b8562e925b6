import ArtCanvas.Clock.Basic
import ArtCanvas.Compile.Layer
import ArtCanvas.Function.Placement
import ArtCanvas.Trigger

/-!
# Draw functions

A draw function paints the art of one or more layers. It can be moved, turned, scaled and faded by
clocks, can follow the path of an animation function, and can be painted from an image file instead.
-/

namespace ArtCanvas

/-- What every function has. -/
structure FunctionHeader where
  /-- The name, an identifier that no other function has. -/
  name : String
  /-- The name that layers ask for; several functions may share it. -/
  requested : String
  /-- The box around the art. -/
  bounds : Box Float := Box.empty
  /-- The canvas that is painted on. -/
  canvas : Nat := 0
  deriving Repr, Inhabited

/-- A function that paints layers. -/
structure DrawFunction where
  /-- Names and bounds. -/
  header : FunctionHeader
  /-- The positions of the painted layers, in painting order. -/
  layers : List Nat := []
  /-- What the art needs. -/
  features : Features := {}
  /-- Whether an origin was chosen. -/
  originSet : Bool := false
  /-- The origin chosen last, as a fraction of the width from the left. -/
  originH : Float := 0.0
  /-- The origin chosen last, as a fraction of the height from the top. -/
  originV : Float := 0.0
  /-- The image file that is painted instead of the art. -/
  imageFile : Option String := none
  /-- Whether the page is cut to the function's first layer. -/
  crop : Bool := false
  /-- The name of the animation function to follow. -/
  animationName : Option String := none
  /-- The position of that function, once it has been found. -/
  animation : Option Nat := none
  /-- By how many degrees the art is turned against the direction of the path; without a number it
  is not turned along the path. -/
  orientation : Option Float := none
  /-- The clock for the angle. -/
  rotateClock : Clock Float := .ofKind .rotate
  /-- The clock for the size. -/
  scaleClock : Clock Float := .ofKind .scale
  /-- The clock for the opacity. -/
  alphaClock : Clock Float := .ofKind .alpha
  /-- The triggers that drive these clocks. -/
  triggers : List Trigger := []
  deriving Repr

namespace DrawFunction

/-- Adds a layer to what is painted. -/
def addLayer (f : DrawFunction) (index : Nat) (layer : Layer) : DrawFunction :=
  { f with
    layers := f.layers ++ [index]
    header := { f.header with bounds := f.header.bounds.union layer.bounds }
    features := f.features.merge layer.features }

/-- The clock of a kind; a draw function has none for progress along a path. -/
def clock? (f : DrawFunction) : ClockKind → Option (Clock Float)
  | .rotate => some f.rotateClock
  | .scale => some f.scaleClock
  | .alpha => some f.alphaClock
  | .path => none

/-- Changes the clock of a kind. -/
def modifyClock (f : DrawFunction) (kind : ClockKind) (g : Clock Float → Clock Float) :
    DrawFunction :=
  match kind with
  | .rotate => { f with rotateClock := g f.rotateClock }
  | .scale => { f with scaleClock := g f.scaleClock }
  | .alpha => { f with alphaClock := g f.alphaClock }
  | .path => f

/-- The three clocks. -/
def clocks (f : DrawFunction) : List (Clock Float) := [f.rotateClock, f.scaleClock, f.alphaClock]

/-- The clocks that run. -/
def activeClocks (f : DrawFunction) : List (Clock Float) := f.clocks.filter Clock.isActive

/-- Whether the function asks to move: by following an animation function or by a running clock. -/
def asksToMove (f : DrawFunction) : Bool :=
  f.animationName.isSome || !f.activeClocks.isEmpty

/-- What decides where the art is painted. -/
def placement (f : DrawFunction) : Placement Float :=
  { bounds := f.header.bounds
    originSet := f.originSet
    originH := f.originH
    originV := f.originV
    follows := f.animation.isSome }

end DrawFunction

end ArtCanvas
