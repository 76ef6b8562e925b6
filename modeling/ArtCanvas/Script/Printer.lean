import ArtCanvas.Script.Runtime
import ArtCanvas.Script.Script

/-!
# The lines of scripts

How the parts of a script are spelled. Names of functions are escaped where they are declared or
used, coordinates are rounded, and parameters of clocks are written exactly.
-/

namespace ArtCanvas

open Decimal (coordinate)

/-- A number with all its digits. A value that is not a finite number is written as zero. -/
def exactNumber (x : Float) : String := if x.isFinite then Decimal.plain x else "0"

/-- The literal of a box. -/
def Box.literal (b : Box Float) : String :=
  "\x7b left: " ++ coordinate b.left ++ ", top: " ++ coordinate b.top ++ ", width: "
    ++ coordinate b.extent.1 ++ ", height: " ++ coordinate b.extent.2 ++ " \x7d"

/-- The expression that makes a clock. -/
def Clock.literal (c : Clock Float) : String :=
  let arguments := [exactNumber c.duration, exactNumber c.delay, toString c.direction.sign,
    toString c.reverses, toString c.iterations, "timing." ++ c.easing.name, exactNumber c.range,
    exactNumber c.multiplier, exactNumber c.offset]
  "new Clock(" ++ ", ".intercalate arguments ++ ")"

/-- The ending that names a clock of a draw function. -/
def ClockKind.ending : ClockKind → String
  | .path => "PathClock"
  | .rotate => "RotateClock"
  | .scale => "ScaleClock"
  | .alpha => "AlphaClock"

/-- The name of a clock of a draw function. -/
def drawClockName (function : String) (kind : ClockKind) : String := function ++ kind.ending

/-- A clock as scripts refer to it. -/
def ClockRef.text : ClockRef → String
  | .ofPath function => Identifier.escape function ++ ".pathClock"
  | .ofDraw function kind => drawClockName function kind

/-- The line that starts a clock. -/
def ClockRef.startLine (clock : ClockRef) : String := clock.text ++ ".start();"

/-- The line that declares a clock of a draw function. -/
def ClockObject.declaration (o : ClockObject) : String :=
  "export const " ++ drawClockName o.function o.clock.kind ++ " = " ++ o.clock.literal ++ ";"

/-- The type of a drawing context. -/
def contextType : String := "CanvasRenderingContext2D"

/-- The first line of a function that takes a context. -/
def functionLine (name ctx : String) : String :=
  name ++ "(" ++ ctx ++ ": " ++ contextType ++ "): void \x7b"

namespace DrawObject

/-- The image file that the object paints. -/
def file? (o : DrawObject) : Option String :=
  match o.painting with
  | .image file _ _ _ => some file
  | .art _ => none

end DrawObject

namespace PathObject

/-- The line that opens a path. -/
def opening (o : PathObject) : String :=
  "export const " ++ Identifier.escape o.function ++ " = new MotionPath("

/-- A segment as a list of coordinates. -/
def segmentLine (s : Cubic) : String :=
  "[" ++ coordinates [s.p0.x, s.p0.y, s.p1.x, s.p1.y, s.p2.x, s.p2.y, s.p3.x, s.p3.y] ++ "],"

end PathObject

/-- Half a turn has 180 degrees. -/
def radians (degrees : Float) : Float := degrees * (halfTurn / 180.0)

namespace FrameStmt

/-- The line by which a clock changes the context. Progress along a path changes nothing. -/
def clockLines (ctx function : String) (kind : ClockKind) : List String :=
  let value := drawClockName function kind ++ ".value"
  match kind with
  | .rotate => [ctx ++ ".rotate(" ++ value ++ ");"]
  | .scale => [ctx ++ ".scale(" ++ value ++ ", " ++ value ++ ");"]
  | .alpha => [ctx ++ ".globalAlpha *= " ++ value ++ ";"]
  | .path => []

/-- The lines of a statement, where the context is called `ctx`. -/
def lines (ctx : String) : FrameStmt → List String
  | .save => [ctx ++ ".save();"]
  | .restore => [ctx ++ ".restore();"]
  | .move offset => [ctx ++ ".translate(" ++ coordinates [offset.x, offset.y] ++ ");"]
  | .moveAlong function =>
    let path := Identifier.escape function
    [ctx ++ ".translate(" ++ path ++ ".x(), " ++ path ++ ".y());"]
  | .turnAlong function degrees =>
    let more := if degrees == 0.0 then "" else " + " ++ coordinate (radians degrees)
    [ctx ++ ".rotate(" ++ Identifier.escape function ++ ".angle()" ++ more ++ ");"]
  | .applyClock function kind => clockLines ctx function kind
  | .paint function => [Identifier.escape function ++ ".paint(" ++ ctx ++ ");"]
  | .markStyle => [ctx ++ ".fillStyle = \"rgb(0, 0, 255)\";"]
  | .mark => [ctx ++ ".fillRect(-2, -2, 5, 5);"]

end FrameStmt

/-- A wiring as a line. -/
def Wiring.line (w : Wiring) : String :=
  w.source.text ++ "." ++ w.event.scriptName ++ ".on(() => " ++ w.target.text ++ "."
    ++ w.action.scriptName ++ "());"

namespace Script

variable (o : EmitOptions) (s : Script)

/-- The statements that paint a frame; origins are marked if that is asked for. -/
def frameBody : List FrameStmt := s.frame.flatMap (FrameCall.body o.debug)

end Script

end ArtCanvas
