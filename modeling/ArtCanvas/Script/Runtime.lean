import ArtCanvas.Easing

/-!
# The clock code of scripts

A script whose page can move carries code for clocks, easing curves and paths. The code is a list of
declarations, each with its name apart, so that it is known which names the code takes. Its formulas
are those of `Clock.sample`, `Easing.apply` and `Stretch.locate`.
-/

namespace ArtCanvas.Runtime

/-- A declaration of the clock code. -/
structure Declaration where
  /-- The word that says what is declared. -/
  keyword : String
  /-- The name that is declared. -/
  name : String
  /-- The rest of the first line. -/
  rest : String
  /-- The other lines. -/
  body : List String := []
  deriving DecidableEq, Repr

/-- The lines of a declaration. -/
def Declaration.lines (d : Declaration) : List String :=
  (d.keyword ++ " " ++ d.name ++ d.rest) :: d.body

/-- The type of easing curves. -/
def timingType : Declaration where
  keyword := "type"
  name := "TimingFunction"
  rest := " = (t: number) => number;"

/-- What can be listened to. -/
def eventClass : Declaration where
  keyword := "class"
  name := "ClockEvent"
  rest := " \x7b"
  body := [
    "  private listeners: Array<() => void> = [];",
    "",
    "  on(listener: () => void): void \x7b",
    "    this.listeners.push(listener);",
    "  \x7d",
    "",
    "  fire(): void \x7b",
    "    for (const listener of this.listeners) \x7b",
    "      listener();",
    "    \x7d",
    "  \x7d",
    "\x7d"]

/-- All clocks. -/
def clockList : Declaration where
  keyword := "const"
  name := "clocks"
  rest := ": Clock[] = [];"

/-- A clock. -/
def clockClass : Declaration where
  keyword := "class"
  name := "Clock"
  rest := " \x7b"
  body := [
    "  readonly started = new ClockEvent();",
    "  readonly stopped = new ClockEvent();",
    "  readonly iterated = new ClockEvent();",
    "  readonly finished = new ClockEvent();",
    "",
    "  private readonly span: number;",
    "  private readonly base: number;",
    "  private startTime = 0;",
    "  private stopTime = 0;",
    "  private baseDirection = 1;",
    "  private d = 1;",
    "  private t = 0;",
    "  private i = 0;",
    "  private isRunning = false;",
    "  private isFinished = false;",
    "  value = 0;",
    "",
    "  constructor(",
    "    readonly duration: number,",
    "    readonly delay: number,",
    "    readonly direction: number,",
    "    readonly reverses: boolean,",
    "    readonly iterations: number,",
    "    readonly timing: TimingFunction,",
    "    range: number,",
    "    multiplier: number,",
    "    offset: number,",
    "  ) \x7b",
    "    this.span = range * multiplier;",
    "    this.base = range * offset;",
    "    this.reset();",
    "    clocks.push(this);",
    "  \x7d",
    "",
    "  reset(): void \x7b",
    "    this.startTime = 0;",
    "    this.stopTime = 0;",
    "    this.baseDirection = this.direction;",
    "    this.d = this.baseDirection;",
    "    this.t = this.baseDirection === 1 ? 0 : 1;",
    "    this.i = 0;",
    "    this.isRunning = false;",
    "    this.isFinished = false;",
    "    this.value = this.timing(this.t) * this.span + this.base;",
    "  \x7d",
    "",
    "  start(): void \x7b",
    "    if (!this.isRunning && !this.isFinished) \x7b",
    "      this.startTime = performance.now() - (this.stopTime - this.startTime);",
    "      this.isRunning = true;",
    "      this.started.fire();",
    "    \x7d",
    "  \x7d",
    "",
    "  restart(): void \x7b",
    "    this.reset();",
    "    this.start();",
    "  \x7d",
    "",
    "  stop(): void \x7b",
    "    if (this.isRunning && !this.isFinished) \x7b",
    "      this.stopTime = performance.now();",
    "      this.isRunning = false;",
    "      this.stopped.fire();",
    "    \x7d",
    "  \x7d",
    "",
    "  toggle(): void \x7b",
    "    if (this.isRunning) \x7b",
    "      this.stop();",
    "    \x7d else \x7b",
    "      this.start();",
    "    \x7d",
    "  \x7d",
    "",
    "  rewind(): void \x7b",
    "    if (this.isRunning && !this.isFinished) \x7b",
    "      this.jumpTo(this.i);",
    "    \x7d",
    "  \x7d",
    "",
    "  fastForward(): void \x7b",
    "    if (this.isRunning && !this.isFinished) \x7b",
    "      this.jumpTo(this.i + 1);",
    "    \x7d",
    "  \x7d",
    "",
    "  reverse(): void \x7b",
    "    if (this.isRunning && !this.isFinished) \x7b",
    "      this.baseDirection = -this.baseDirection;",
    "      this.jumpTo(this.i + (this.d === -1 ? this.t : 1 - this.t));",
    "    \x7d",
    "  \x7d",
    "",
    "  private jumpTo(iteration: number): void \x7b",
    "    this.startTime = performance.now() - (this.delay + iteration * this.duration) * 1000;",
    "  \x7d",
    "",
    "  update(now: number): void \x7b",
    "    if (!this.isRunning || this.isFinished) \x7b",
    "      return;",
    "    \x7d",
    "    const elapsed = (now - this.startTime) / 1000;",
    "    const progress = Math.max(0, (elapsed - this.delay) / this.duration);",
    "    let iteration = Math.floor(progress);",
    "    if (iteration !== this.i) \x7b",
    "      this.iterated.fire();",
    "    \x7d",
    "    this.t = progress - iteration;",
    "    if (this.iterations !== 0 && iteration >= this.iterations) \x7b",
    "      iteration = this.iterations - 1;",
    "      this.t = 1;",
    "      this.stop();",
    "      this.isFinished = true;",
    "      this.finished.fire();",
    "    \x7d",
    "    this.i = iteration;",
    "    this.d = this.reverses && this.i % 2 === 1 ? -this.baseDirection : this.baseDirection;",
    "    if (this.d === -1) \x7b",
    "      this.t = 1 - this.t;",
    "    \x7d",
    "    this.value = this.timing(this.t) * this.span + this.base;",
    "  \x7d",
    "\x7d"]

/-- Brings all clocks up to date. -/
def updateFunction : Declaration where
  keyword := "function"
  name := "updateClocks"
  rest := "(): void \x7b"
  body := [
    "  const now = performance.now();",
    "  for (const clock of clocks) \x7b",
    "    clock.update(now);",
    "  \x7d",
    "\x7d"]

/-- The bouncing curve. -/
def bounceFunction : Declaration where
  keyword := "function"
  name := "bounceOut"
  rest := "(t: number): number \x7b"
  body := [
    "  if (t < 1 / 2.75) \x7b",
    "    return 7.5625 * t * t;",
    "  \x7d else if (t < 2 / 2.75) \x7b",
    "    t -= 1.5 / 2.75;",
    "    return 7.5625 * t * t + 0.75;",
    "  \x7d else if (t < 2.5 / 2.75) \x7b",
    "    t -= 2.25 / 2.75;",
    "    return 7.5625 * t * t + 0.9375;",
    "  \x7d",
    "  t -= 2.625 / 2.75;",
    "  return 7.5625 * t * t + 0.984375;",
    "\x7d"]

/-- The curves that are slow at both ends. -/
def splitFunction : Declaration where
  keyword := "function"
  name := "inOut"
  rest := "(t: number, first: TimingFunction, second: TimingFunction, shift: number): number \x7b"
  body := [
    "  const u = t * 2;",
    "  return u < 1 ? 0.5 * first(u) : 0.5 * second(u + shift);",
    "\x7d"]

/-- The expression of a curve on a time `t` from 0 to 1. -/
def easingExpression : Easing → String
  | .linear => "t"
  | .ease .sine .easeIn => "1 - Math.cos((t * Math.PI) / 2)"
  | .ease .sine .easeOut => "Math.sin((t * Math.PI) / 2)"
  | .ease .sine .easeInOut => "-0.5 * (Math.cos(Math.PI * t) - 1)"
  | .ease .quad .easeIn => "t * t"
  | .ease .quad .easeOut => "-t * (t - 2)"
  | .ease .quad .easeInOut => "inOut(t, (u) => u * u, (u) => -(u * (u - 2) - 1), -1)"
  | .ease .cubic .easeIn => "t ** 3"
  | .ease .cubic .easeOut => "(t - 1) ** 3 + 1"
  | .ease .cubic .easeInOut => "inOut(t, (u) => u ** 3, (u) => u ** 3 + 2, -2)"
  | .ease .quart .easeIn => "t ** 4"
  | .ease .quart .easeOut => "-((t - 1) ** 4 - 1)"
  | .ease .quart .easeInOut => "inOut(t, (u) => u ** 4, (u) => -(u ** 4 - 2), -2)"
  | .ease .quint .easeIn => "t ** 5"
  | .ease .quint .easeOut => "(t - 1) ** 5 + 1"
  | .ease .quint .easeInOut => "inOut(t, (u) => u ** 5, (u) => u ** 5 + 2, -2)"
  | .ease .circ .easeIn => "-(Math.sqrt(1 - t * t) - 1)"
  | .ease .circ .easeOut => "Math.sqrt(1 - (t - 1) * (t - 1))"
  | .ease .circ .easeInOut =>
    "inOut(t, (u) => -(Math.sqrt(1 - u * u) - 1), (u) => Math.sqrt(1 - u * u) + 1, -2)"
  | .ease .expo .easeIn => "t === 0 ? 0 : 2 ** (10 * (t - 1))"
  | .ease .expo .easeOut => "t === 1 ? 1 : 1 - 2 ** (-10 * t)"
  | .ease .expo .easeInOut =>
    "t === 0 || t === 1 ? t : t < 0.5 ? 0.5 * 2 ** (10 * (2 * t - 1))"
      ++ " : 0.5 * (2 - 2 ** (-10 * (2 * t - 1)))"
  | .ease .bounce .easeIn => "1 - bounceOut(1 - t)"
  | .ease .bounce .easeOut => "bounceOut(t)"
  | .ease .bounce .easeInOut =>
    "t < 0.5 ? (1 - bounceOut(1 - 2 * t)) * 0.5 : bounceOut(2 * t - 1) * 0.5 + 0.5"
  | .zeroStep => "t <= 0 ? 0 : 1"
  | .halfStep => "t < 0.5 ? 0 : 1"
  | .oneStep => "t >= 1 ? 1 : 0"
  | .clockTick => "Math.floor(t * 60) / 60"

/-- The entry of a curve in the table of easing curves. -/
def easingEntry (e : Easing) : List String :=
  ["  " ++ e.name ++ ": (t) => \x7b",
    "    t = Math.min(Math.max(t, 0), 1);",
    "    return " ++ easingExpression e ++ ";",
    "  \x7d,"]

/-- The table of easing curves. -/
def easingTable : Declaration where
  keyword := "const"
  name := "timing"
  rest := ": Record<string, TimingFunction> = \x7b"
  body := Easing.all.flatMap easingEntry ++ ["\x7d;"]

/-- The type of curve segments. -/
def segmentType : Declaration where
  keyword := "type"
  name := "Segment"
  rest := " = [number, number, number, number, number, number, number, number];"

/-- A path that is followed. -/
def pathClass : Declaration where
  keyword := "class"
  name := "MotionPath"
  rest := " \x7b"
  body := [
    "  private readonly total: number;",
    "",
    "  constructor(",
    "    readonly segments: Segment[],",
    "    readonly lengths: number[],",
    "    readonly pathClock: Clock,",
    "  ) \x7b",
    "    this.total = lengths.reduce((sum, length) => sum + length, 0);",
    "  \x7d",
    "",
    "  private locate(): [Segment, number] | undefined \x7b",
    "    if (this.segments.length === 0) \x7b",
    "      return undefined;",
    "    \x7d",
    "    let remaining = Math.min(Math.max(this.pathClock.value, 0), 1) * this.total;",
    "    for (let i = 0; i < this.segments.length; i++) \x7b",
    "      const length = this.lengths[i];",
    "      if (remaining <= length && length > 0) \x7b",
    "        return [this.segments[i], remaining / length];",
    "      \x7d",
    "      remaining -= length;",
    "    \x7d",
    "    return [this.segments[this.segments.length - 1], 1];",
    "  \x7d",
    "",
    "  x(): number \x7b",
    "    const hit = this.locate();",
    "    return hit ? cubic(hit[0][0], hit[0][2], hit[0][4], hit[0][6], hit[1]) : 0;",
    "  \x7d",
    "",
    "  y(): number \x7b",
    "    const hit = this.locate();",
    "    return hit ? cubic(hit[0][1], hit[0][3], hit[0][5], hit[0][7], hit[1]) : 0;",
    "  \x7d",
    "",
    "  angle(): number \x7b",
    "    const hit = this.locate();",
    "    if (!hit) \x7b",
    "      return 0;",
    "    \x7d",
    "    const [s, t] = hit;",
    "    const dx = cubicSlope(s[0], s[2], s[4], s[6], t);",
    "    const dy = cubicSlope(s[1], s[3], s[5], s[7], t);",
    "    return Math.atan2(dy, dx);",
    "  \x7d",
    "\x7d"]

/-- A coordinate of a cubic curve. -/
def cubicFunction : Declaration where
  keyword := "function"
  name := "cubic"
  rest := "(a: number, b: number, c: number, d: number, t: number): number \x7b"
  body := [
    "  const u = 1 - t;",
    "  return u * u * u * a + 3 * u * u * t * b + 3 * u * t * t * c + t * t * t * d;",
    "\x7d"]

/-- A slope of a cubic curve. -/
def slopeFunction : Declaration where
  keyword := "function"
  name := "cubicSlope"
  rest := "(a: number, b: number, c: number, d: number, t: number): number \x7b"
  body := [
    "  const u = 1 - t;",
    "  return 3 * u * u * (b - a) + 6 * u * t * (c - b) + 3 * t * t * (d - c);",
    "\x7d"]

/-- The whole clock code. -/
def declarations : List Declaration :=
  [timingType, eventClass, clockList, clockClass, updateFunction,
    bounceFunction, splitFunction, easingTable,
    segmentType, pathClass, cubicFunction, slopeFunction]

/-- The lines of the clock code: its declarations with empty lines between them. -/
def lines : List String := [""].intercalate (declarations.map Declaration.lines)

/-- The text of the clock code. -/
def text : String := String.join (lines.map (· ++ "\n"))

/-- The names that the clock code takes. -/
def names : List String := declarations.map Declaration.name

end ArtCanvas.Runtime
