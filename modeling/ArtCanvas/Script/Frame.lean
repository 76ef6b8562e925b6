import ArtCanvas.Clock.Basic
import ArtCanvas.Geometry.Point

/-!
# Painting a frame

An animated or still page is painted frame by frame. For each draw function the context is brought
to the place of the function, changed by its clocks, painted on, and set back.

`FrameCall.body` says this as statements, before any of them is text.
-/

namespace ArtCanvas

/-- How a draw function is brought to its place in a frame. -/
inductive Approach where
  /-- It is painted where it is. -/
  | stay
  /-- The origin is moved. -/
  | move (offset : Point Float)
  /-- The origin is moved to the current place on a path, and turned along it by some degrees more
  than its direction. -/
  | follow (function : String) (orientation : Option Float)
  deriving Repr

/-- The painting of a draw function in a frame. -/
structure FrameCall where
  /-- The name of the function. -/
  function : String
  /-- How the function is brought to its place. -/
  approach : Approach
  /-- The clocks that change the context. -/
  clocks : List ClockKind
  /-- Whether an origin was chosen. -/
  originSet : Bool
  deriving Repr

/-- A statement of a frame. -/
inductive FrameStmt where
  /-- Keeps the state of the context. -/
  | save
  /-- Goes back to the state that was kept last. -/
  | restore
  /-- Moves the origin. -/
  | move (offset : Point Float)
  /-- Moves the origin to the current place on a path. -/
  | moveAlong (function : String)
  /-- Turns the context along a path, and by some degrees more. -/
  | turnAlong (function : String) (degrees : Float)
  /-- Changes the context by the value of a clock. -/
  | applyClock (function : String) (kind : ClockKind)
  /-- Paints a draw function. -/
  | paint (function : String)
  /-- Chooses the colour that marks an origin. -/
  | markStyle
  /-- Marks the origin. -/
  | mark
  deriving Repr

/-- The statements that bring a function to its place. -/
def Approach.body : Approach → List FrameStmt
  | .stay => []
  | .move offset => [.move offset]
  | .follow function orientation =>
    .moveAlong function :: (orientation.map (FrameStmt.turnAlong function)).toList

namespace FrameCall

/-- Whether the context is changed for the function and has to be set back. -/
def isTransformed (f : FrameCall) : Bool :=
  match f.approach with
  | .follow .. => true
  | .move _ | .stay => f.originSet || !f.clocks.isEmpty

/-- The statements that mark the origin. -/
def markOrigin : List FrameStmt := [.save, .markStyle, .mark, .restore]

/-- The statements between those that keep the context and set it back. `marks` says whether chosen
origins are marked. -/
def inner (marks : Bool) (f : FrameCall) : List FrameStmt :=
  f.approach.body ++ f.clocks.map (.applyClock f.function) ++ [.paint f.function]
    ++ if marks && f.originSet then markOrigin else []

/-- The statements that paint the function. -/
def body (marks : Bool) (f : FrameCall) : List FrameStmt :=
  if f.isTransformed then .save :: f.inner marks ++ [.restore] else f.inner marks

end FrameCall

end ArtCanvas
