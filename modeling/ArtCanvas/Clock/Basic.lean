import ArtCanvas.Easing

/-!
# Clocks

A clock drives one property of a function: it runs for a duration, a number of times, forward or
backward, and its value follows an easing curve. `Clock.sample` says what the clock shows a given
time after it was started.
-/

namespace ArtCanvas

/-- The way a clock runs. -/
inductive Direction where
  /-- Not at all. -/
  | idle
  /-- From the start of its range to the end. -/
  | forward
  /-- From the end of its range to the start. -/
  | backward
  deriving DecidableEq, Repr, Inhabited

namespace Direction

/-- The other way round. -/
def reversed : Direction → Direction
  | .idle => .idle
  | .forward => .backward
  | .backward => .forward

/-- The direction as a number. -/
def sign : Direction → Int
  | .idle => 0
  | .forward => 1
  | .backward => -1

/-- The name of the direction in reports. -/
def name : Direction → String
  | .idle => "None"
  | .forward => "Forward"
  | .backward => "Backward"

@[simp]
theorem reversed_reversed (d : Direction) : d.reversed.reversed = d := by
  cases d <;> rfl

end Direction

/-- The property that a clock drives. -/
inductive ClockKind where
  /-- Progress along the path of an animation function. -/
  | path
  /-- The angle of a draw function. -/
  | rotate
  /-- The size of a draw function. -/
  | scale
  /-- The opacity of a draw function. -/
  | alpha
  deriving DecidableEq, Repr, Inhabited

namespace ClockKind

/-- The kind that options name before a hyphen. -/
def parse? : String → Option ClockKind
  | "path" => some .path
  | "rotate" | "rotation" => some .rotate
  | "scale" => some .scale
  | "alpha" | "fade" => some .alpha
  | _ => none

/-- The name of the kind in reports. -/
def name : ClockKind → String
  | .path => "Path"
  | .rotate => "Rotate"
  | .scale => "Scale"
  | .alpha => "Alpha"

/-- The name of a clock of this kind in scripts. -/
def clockName : ClockKind → String
  | .path => "pathClock"
  | .rotate => "rotateClock"
  | .scale => "scaleClock"
  | .alpha => "alphaClock"

/-- The range that one run covers: a full turn for an angle, 1 for all else. -/
def defaultRange {α : Type} [Scalar α] : ClockKind → α
  | .rotate => Scalar.turn
  | .path | .scale | .alpha => 1.0

end ClockKind

/-- A clock, as it is set up before it is started. -/
structure Clock (α : Type) where
  /-- The property that the clock drives. -/
  kind : ClockKind
  /-- How many seconds one run takes. -/
  duration : α
  /-- How many seconds pass before the first run. -/
  delay : α
  /-- The way the clock runs. -/
  direction : Direction
  /-- Whether every other run goes the other way. -/
  reverses : Bool
  /-- How many times the clock runs; zero stands for no end. -/
  iterations : Nat
  /-- The curve that its value follows. -/
  easing : Easing
  /-- The range of values that one run covers. -/
  range : α
  /-- A factor on the range. -/
  multiplier : α
  /-- Where the range starts, in ranges. -/
  offset : α
  /-- Whether the direction was set by an option. -/
  directionGiven : Bool
  deriving Repr

/-- What a clock shows at one moment. -/
structure ClockSample (α : Type) where
  /-- How many runs are over. -/
  iteration : Nat
  /-- The time within the run, from 0 to 1, seen along the direction of the range. -/
  t : α
  /-- The way the clock runs at this moment. -/
  direction : Direction
  /-- The value of the clock. -/
  value : α
  /-- Whether all runs are over. -/
  finished : Bool
  deriving Repr

namespace Clock

variable {α : Type} [Scalar α]

/-- The idle clock of a kind. -/
def ofKind (kind : ClockKind) : Clock α :=
  { kind
    duration := 1.0
    delay := 0.0
    direction := .idle
    reverses := false
    iterations := 1
    easing := .linear
    range := kind.defaultRange
    multiplier := 1.0
    offset := 0.0
    directionGiven := false }

/-- Whether the clock runs when it is started. -/
def isActive (c : Clock α) : Bool := c.direction != .idle

/-- The value of the clock where the time within the run is `t`. The curves are given by `ease`. -/
def valueAt (ease : Easing → α → α) (c : Clock α) (t : α) : α :=
  ease c.easing t * (c.range * c.multiplier) + c.range * c.offset

/-- The value of the clock before it is started. -/
def initialValue (ease : Easing → α → α) (c : Clock α) : α :=
  c.valueAt ease (if c.direction = .forward then 0.0 else 1.0)

/-- How many runs fit into the time since the clock was started; none before the delay is over. -/
def progress (c : Clock α) (elapsed : α) : α :=
  Scalar.greater ((elapsed - c.delay) / c.duration) 0.0

/-- The greatest number of a run that is told apart. -/
def lastIteration : Nat := 4294967295

/-- The way the clock runs in a given run. -/
def directionIn (c : Clock α) (iteration : Nat) : Direction :=
  if c.reverses && iteration % 2 == 1 then c.direction.reversed else c.direction

/-- What an active clock shows `elapsed` seconds after it was started. -/
def sampleActive (ease : Easing → α → α) (c : Clock α) (elapsed : α) : ClockSample α :=
  let progress := c.progress elapsed
  let runs := Scalar.floor progress
  let finished := decide (c.iterations ≠ 0) && decide (Scalar.ofNat c.iterations ≤ runs)
  let iteration := if finished then c.iterations - 1 else min (Scalar.toNat runs) lastIteration
  let passed := if finished then 1.0 else progress - runs
  let direction := c.directionIn iteration
  let t := if direction = .backward then 1.0 - passed else passed
  { iteration, t, direction, value := c.valueAt ease t, finished }

/-- What the clock shows `elapsed` seconds after it was started. An idle clock keeps its first
value. -/
def sample (ease : Easing → α → α) (c : Clock α) (elapsed : α) : ClockSample α :=
  if c.isActive then c.sampleActive ease elapsed
  else
    { iteration := 0, t := 1.0, direction := .idle, value := c.initialValue ease
      finished := false }

end Clock

end ArtCanvas
