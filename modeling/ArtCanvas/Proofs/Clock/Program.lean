import ArtCanvas.Proofs.Clock.Language
import ArtCanvas.Script.Runtime

/-!
# The class of clocks

The class of clocks in scripts, as pieces of code.

* `ClockCode.program`: the class.
* `ClockCode.lines_program`: its text is the text that scripts carry.
-/

namespace ArtCanvas.ClockCode

/-! ### Expressions that stand in several methods -/

/-- The clock runs, and not all runs are over. -/
def Test.working : Test := .and (.flag .isRunning) (.not (.flag .isFinished))

/-- The value for the time within the run. -/
def Num.shown : Num :=
  .binary .add (.binary .mul (.timing (.field .t)) (.field .span)) (.field .base)

/-! ### Methods -/

/-- Puts the clock back to where it was made. -/
def reset : Method where
  name := "reset"
  body := [
    .setNum .startTime (.literal 0),
    .setNum .stopTime (.literal 0),
    .setNum .baseDirection (.field .direction),
    .setNum .d (.field .baseDirection),
    .setNum .t (.choose (.compare .same (.field .baseDirection) (.literal 1))
      (.literal 0) (.literal 1)),
    .setNum .i (.literal 0),
    .setFlag .isRunning false,
    .setFlag .isFinished false,
    .setNum .value .shown]

/-- Lets the clock run, from where it was stopped. -/
def start : Method where
  name := "start"
  body := [
    .when (.and (.not (.flag .isRunning)) (.not (.flag .isFinished))) [
      .setNum .startTime
        (.binary .sub .watch (.binary .sub (.field .stopTime) (.field .startTime))),
      .setFlag .isRunning true,
      .fire .started]]

/-- Lets the clock run from its first run on. -/
def restart : Method where
  name := "restart"
  body := [reset.call [], start.call []]

/-- Halts the clock. -/
def stop : Method where
  name := "stop"
  body := [
    .when .working [
      .setNum .stopTime .watch,
      .setFlag .isRunning false,
      .fire .stopped]]

/-- Halts the clock where it runs, and lets it run where it does not. -/
def toggle : Method where
  name := "toggle"
  body := [.choose (.flag .isRunning) [stop.call []] [start.call []]]

/-- Moves the start so that a number of runs is over now. -/
def jumpTo : Method where
  hidden := true
  name := "jumpTo"
  parameters := [.iteration]
  body := [
    .setNum .startTime (.binary .sub .watch
      (.binary .mul
        (.binary .add (.field .delay) (.binary .mul (.var .iteration) (.field .duration)))
        (.literal 1000)))]

/-- Back to the start of the run. -/
def rewind : Method where
  name := "rewind"
  body := [.when .working [jumpTo.call [.field .i]]]

/-- On to the next run. -/
def fastForward : Method where
  name := "fastForward"
  body := [.when .working [jumpTo.call [.binary .add (.field .i) (.literal 1)]]]

/-- Lets the clock run the other way, from where it is. -/
def reverse : Method where
  name := "reverse"
  body := [
    .when .working [
      .setNum .baseDirection (.neg (.field .baseDirection)),
      jumpTo.call [
        .binary .add (.field .i)
          (.choose (.compare .same (.field .d) (.neg (.literal 1)))
            (.field .t) (.binary .sub (.literal 1) (.field .t)))]]]

/-- Works out the run that the clock is in and the part of it that has passed, and halts the clock
where all runs are over. -/
def advance : List Stmt := [
  .when (.or (.not (.flag .isRunning)) (.flag .isFinished)) [.leave],
  .declare true .elapsed
    (.binary .div (.binary .sub (.var .now) (.field .startTime)) (.literal 1000)),
  .declare true .progress
    (.max (.literal 0)
      (.binary .div (.binary .sub (.var .elapsed) (.field .delay)) (.field .duration))),
  .declare false .iteration (.floor (.var .progress)),
  .when (.compare .differs (.var .iteration) (.field .i)) [.fire .iterated],
  .setNum .t (.binary .sub (.var .progress) (.var .iteration)),
  .when (.and (.compare .differs (.field .iterations) (.literal 0))
      (.compare .atLeast (.var .iteration) (.field .iterations))) [
    .assign .iteration (.binary .sub (.field .iterations) (.literal 1)),
    .setNum .t (.literal 1),
    stop.call [],
    .setFlag .isFinished true,
    .fire .finished]]

/-- Works out the direction, the time along the range and the value. -/
def settle : List Stmt := [
  .setNum .i (.var .iteration),
  .setNum .d
    (.choose (.and (.flag .reverses)
        (.compare .same (.binary .rem (.field .i) (.literal 2)) (.literal 1)))
      (.neg (.field .baseDirection)) (.field .baseDirection)),
  .when (.compare .same (.field .d) (.neg (.literal 1))) [
    .setNum .t (.binary .sub (.literal 1) (.field .t))],
  .setNum .value .shown]

/-- Brings the clock up to a time. -/
def update : Method where
  name := "update"
  parameters := [.now]
  body := advance ++ settle

/-! ### The class -/

/-- The class of clocks. -/
def program : ClassCode where
  events := [.started, .stopped, .iterated, .finished]
  fields := [.fixed .span, .fixed .base, .num true .startTime 0, .num true .stopTime 0,
    .num true .baseDirection 1, .num true .d 1, .num true .t 0, .num true .i 0,
    .flag .isRunning false, .flag .isFinished false, .num false .value 0]
  parameters := [.num .duration, .num .delay, .num .direction, .flag .reverses, .num .iterations,
    .timing, .var .range, .var .multiplier, .var .offset]
  body := [
    .setNum .span (.binary .mul (.var .range) (.var .multiplier)),
    .setNum .base (.binary .mul (.var .range) (.var .offset)),
    reset.call [],
    .enlist]
  methods := [reset, start, restart, stop, toggle, rewind, fastForward, reverse, jumpTo, update]

set_option maxRecDepth 20000 in
/-- The text of the class is the text that scripts carry. -/
theorem lines_program : program.lines = Runtime.clockClass.body := by
  rfl

end ArtCanvas.ClockCode
