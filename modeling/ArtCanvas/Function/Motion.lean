import ArtCanvas.Function.Draw
import ArtCanvas.Clock.Setting
import ArtCanvas.Geometry.Path.Basic
import ArtCanvas.LayerName

/-!
# Animation functions

An animation function is a path that draw functions follow. The value of its clock says which part
of the whole length has been covered; `Stretch.locate` finds the segment that holds this place.
-/

namespace ArtCanvas

/-- A function that is followed. -/
structure MotionFunction where
  /-- Names and bounds. -/
  header : FunctionHeader
  /-- The position of the layer with the path. -/
  layer : Option Nat := none
  /-- The first node of that layer. -/
  art : Option Nat := none
  /-- The path, as cubic curves. -/
  segments : List Cubic := []
  /-- The lengths of the curves. -/
  lengths : List Float := []
  /-- The clock for progress along the path. -/
  pathClock : Clock Float := .running .path
  /-- The triggers that drive this clock. -/
  triggers : List Trigger := []
  deriving Repr

/-- A setting of an animation function. -/
inductive MotionSetting where
  /-- The kind of the function, which is settled before options are put into effect. -/
  | kind (kind : FunctionKind)
  /-- A setting of the clock. -/
  | clock (setting : ClockSetting)
  /-- One more trigger. -/
  | trigger (trigger : Trigger)
  deriving Repr

namespace MotionSetting

/-- The key of an option without the name of the clock in front, which may be left out. -/
def clockKey (key : String) : String :=
  String.ofList ((Text.dropStart? ['p', 'a', 't', 'h', '-'] key.toList).getD key.toList)

/-- Reads an option of an animation function. -/
def parse (key value : String) : Reading MotionSetting :=
  match key with
  | "type" | "t" => .ofOption ((FunctionKind.parse? value).map .kind)
  | _ =>
    let key := clockKey key
    if key = "trigger" then .ofOption ((Trigger.parse? .path value).map .trigger)
    else (ClockSetting.parse key value).map .clock

end MotionSetting

namespace Stretch

variable {α : Type} [Scalar α]

/-- The whole length. -/
def total (lengths : List α) : α := lengths.foldl (· + ·) 0.0

/-- The stretch that holds the place at distance `rest` from the start, and the distance within it.
Stretches without length hold nothing. -/
def locate (rest : α) : List α → Option (Nat × α)
  | [] => none
  | length :: lengths =>
    if rest ≤ length ∧ 0.0 < length then some (0, rest)
    else (locate (rest - length) lengths).map fun (index, rest) => (index + 1, rest)

/-- The place that lies the part `fraction` of the whole length from the start. -/
def locateFraction (fraction : α) (lengths : List α) : Option (Nat × α) :=
  locate (Scalar.clamp fraction 0.0 1.0 * total lengths) lengths

end Stretch

namespace MotionFunction

/-- How exactly lengths are computed. -/
def accuracy : Float := 1e-3

/-- Replaces the path. -/
def setPath [CurveLibrary] (f : MotionFunction) (path : Path) : MotionFunction :=
  { f with
    segments := path.segments
    lengths := path.segments.map (CurveLibrary.length · accuracy) }

/-- The whole length of the path. -/
def totalLength (f : MotionFunction) : Float := Stretch.total f.lengths

/-- The point of the path that lies the part `fraction` of its length from the start. -/
def pointAt [CurveLibrary] (f : MotionFunction) (fraction : Float) : Option (Point Float) := do
  let last ← f.segments.getLast?
  if f.totalLength ≤ 0.0 then return last.p3
  match Stretch.locateFraction fraction f.lengths with
  | none => return last.p3
  | some (index, rest) =>
    let segment ← f.segments[index]?
    return segment.eval (CurveLibrary.atLength segment rest accuracy)

/-- Puts a setting into effect. -/
def apply (s : MotionSetting) (f : MotionFunction) : MotionFunction :=
  match s with
  | .kind _ => f
  | .clock setting => { f with pathClock := Clock.apply setting f.pathClock }
  | .trigger trigger => { f with triggers := f.triggers ++ [trigger] }

/-- Puts an option into effect, key by key. What is not the kind or a trigger is an option of the
clock. `MotionSetting.parse` and `apply` say the same without the branches. -/
def setOption (key value : String) : StateM MotionFunction Outcome := do
  if key = "type" ∨ key = "t" then
    match FunctionKind.parse? value with
    | some _ => return .applied
    | none => return .malformed
  let key := MotionSetting.clockKey key
  if key = "trigger" then
    match Trigger.parse? .path value with
    | some trigger =>
      modify fun f => { f with triggers := f.triggers ++ [trigger] }
      return .applied
    | none => return .malformed
  let f ← get
  let (outcome, pathClock) := (Clock.setOption key value).run f.pathClock
  modify ({ · with pathClock })
  return outcome

/-- The function after an option, and what became of the option. -/
def set (key value : String) (f : MotionFunction) : Outcome × MotionFunction :=
  (setOption key value).run f

end MotionFunction

end ArtCanvas
