import ArtCanvas.Decimal.Binary64
import ArtCanvas.Geometry.Path.Basic

/-!
# Lengths along cubic curves

The length of a cubic curve is found by numeric integration: an estimate of the error picks one of
three rules, and a curve that is too uneven for all of them is halved. The point at a given length
is found by narrowing an interval of parameters.

Lengths are measured by the library of curves, which is not part of the exporter. `Cubic.length` and
`Cubic.atLength` stand for its functions where the exporter is run, and follow its documentation;
theorems see of them only what `CurveLibrary` gives.
-/

namespace ArtCanvas.Cubic

/-- The direction of the curve at parameter `t`, scaled by its speed. -/
def slope (c : Cubic) (t : Float) : Point Float :=
  let mt := 1.0 - t
  let q0 := (3.0 : Float) * (c.p1 - c.p0)
  let q1 := (3.0 : Float) * (c.p2 - c.p1)
  let q2 := (3.0 : Float) * (c.p3 - c.p2)
  q0 * (mt * mt) + (q1 * (mt * 2.0) + q2 * t) * t

/-- The two halves of the curve. -/
def halves (c : Cubic) : Cubic × Cubic :=
  let middle := c.eval 0.5
  (⟨c.p0, (0.5 : Float) * (c.p0 + c.p1), (c.p0 + c.p1 * (2.0 : Float) + c.p2) * (0.25 : Float),
      middle⟩,
    ⟨middle, (c.p1 + c.p2 * (2.0 : Float) + c.p3) * (0.25 : Float), (0.5 : Float) * (c.p2 + c.p3),
      c.p3⟩)

/-- The part of the curve between two parameters. -/
def between (c : Cubic) (t₀ t₁ : Float) : Cubic :=
  let q0 := c.eval t₀
  let q3 := c.eval t₁
  let s := (t₁ - t₀) * (1.0 / 3.0)
  ⟨q0, q0 + s * c.slope t₀, q3 - s * c.slope t₁, q3⟩

/-- Weights and positive nodes of an integration rule; the negative nodes have the same weights. -/
abbrev Quadrature := List (Float × Float)

/-- The rule with eight nodes. -/
def rule8 : Quadrature :=
  [(0.3626837833783620, 0.1834346424956498), (0.3137066458778873, 0.5255324099163290),
    (0.2223810344533745, 0.7966664774136267), (0.1012285362903763, 0.9602898564975363)]

/-- The rule with sixteen nodes. -/
def rule16 : Quadrature :=
  [(0.1894506104550685, 0.0950125098376374), (0.1826034150449236, 0.2816035507792589),
    (0.1691565193950025, 0.4580167776572274), (0.1495959888165767, 0.6178762444026438),
    (0.1246289712555339, 0.7554044083550030), (0.0951585116824928, 0.8656312023878318),
    (0.0622535239386479, 0.9445750230732326), (0.0271524594117541, 0.9894009349916499)]

/-- The rule with twenty-four nodes. -/
def rule24 : Quadrature :=
  [(0.1279381953467522, 0.0640568928626056), (0.1258374563468283, 0.1911188674736163),
    (0.1216704729278034, 0.3150426796961634), (0.1155056680537256, 0.4337935076260451),
    (0.1074442701159656, 0.5454214713888396), (0.0976186521041139, 0.6480936519369755),
    (0.0861901615319533, 0.7401241915785544), (0.0733464814110803, 0.8200019859739029),
    (0.0592985849154368, 0.8864155270044011), (0.0442774388174198, 0.9382745520027328),
    (0.0285313886289337, 0.9747285559713095), (0.0123412297999872, 0.9951872199970213)]

/-- The derivative of the curve around its middle, as a quadratic in a parameter that runs from
`-1` to `1`. -/
structure Derivative where
  /-- The constant part. -/
  constant : Point Float
  /-- The linear part. -/
  linear : Point Float
  /-- The quadratic part. -/
  quadratic : Point Float

/-- The derivative of `c`. -/
def derivative (c : Cubic) : Derivative :=
  let d01 := c.p1 - c.p0
  let d12 := c.p2 - c.p1
  let d23 := c.p3 - c.p2
  let dd1 := d12 - d01
  let dd2 := d23 - d12
  { constant := (0.25 : Float) * (d01 + d23) + (0.5 : Float) * d12
    linear := (0.5 : Float) * (dd2 + dd1)
    quadratic := (0.25 : Float) * (dd2 - dd1) }

/-- The length by an integration rule. -/
def Derivative.integrate (d : Derivative) (rule : Quadrature) : Float :=
  rule.foldl (fun sum (w, x) =>
    let even := d.constant + d.quadratic * (x * x)
    let odd := d.linear * x
    sum + 1.5 * w * ((even + odd).norm + (even - odd).norm)) 0.0

/-- A measure of how unevenly the curve is run through. -/
def Derivative.unevenness (d : Derivative) : Float :=
  rule8.foldl (fun sum (w, x) =>
    let term (x : Float) : Float :=
      w * ((d.linear + d.quadratic * (2.0 * x)).normSq
        / (d.constant + d.linear * x + d.quadratic * (x * x)).normSq)
    sum + term (-x) + term x) 0.0

/-- Integer powers by repeated squaring, to multiply in a fixed order. -/
def power (x : Float) (n : Nat) : Float :=
  if n = 0 then 1.0
  else
    let rest := power (x * x) (n / 2)
    if n % 2 = 1 then (if n = 1 then x else x * rest) else rest

/-- The length of the curve up to an error of about `accuracy`. A curve is halved at most `depth`
times. -/
def lengthTo : Nat → Cubic → Float → Float
  | depth, c, accuracy =>
    let d := c.derivative
    let excess := (c.p1 - c.p0).norm + (c.p2 - c.p1).norm + (c.p3 - c.p2).norm
      - (c.p3 - c.p0).norm
    let e := d.unevenness
    if Scalar.lesser (power e 3 * 2.5e-6) 3e-2 * excess < accuracy then d.integrate rule8
    else if Scalar.lesser (power e 6 * 1.5e-11) 9e-3 * excess < accuracy then d.integrate rule16
    else if Scalar.lesser (power e 9 * 3.5e-16) 3.5e-3 * excess < accuracy then
      d.integrate rule24
    else match depth with
      | 0 => d.integrate rule24
      | depth + 1 =>
        let (front, back) := c.halves
        lengthTo depth front (accuracy * 0.5) + lengthTo depth back (accuracy * 0.5)

/-- The length of the curve up to an error of about `accuracy`. -/
def length (c : Cubic) (accuracy : Float) : Float := lengthTo 20 c accuracy

/-- A search for the parameter at which a length is reached. -/
structure Search where
  /-- The lower end of the interval. -/
  low : Float
  /-- The upper end of the interval. -/
  high : Float
  /-- By how much the length at the lower end differs from the target. -/
  atLow : Float
  /-- By how much the length at the upper end differs from the target. -/
  atHigh : Float
  /-- How far the next trial may stray from the middle, halved at each step. -/
  slack : Float
  /-- The parameter that was tried last. -/
  tried : Float
  /-- The length up to it. -/
  reached : Float

/-- The parameter to try next: between the middle of the interval and the point where a straight
line through both ends meets the target. -/
def Search.trial (s : Search) : Float :=
  let middle := 0.5 * (s.low + s.high)
  let radius := s.slack - 0.5 * (s.high - s.low)
  let falsi := (s.atHigh * s.low - s.atLow * s.high) / (s.atHigh - s.atLow)
  let sigma := middle - falsi
  let delta := 0.2 * ((s.high - s.low) * (s.high - s.low))
  let toward (size sign : Float) : Float :=
    if sign.toBits >>> 63 == 0 then size.abs else -size.abs
  let shifted := if delta <= (middle - falsi).abs then falsi + toward delta sigma else middle
  if (shifted - middle).abs <= radius then shifted else middle - toward radius sigma

/-- Narrows the interval until it is as short as `eps` asks. -/
def search (c : Cubic) (target accuracy eps : Float) : Nat → Search → Float
  | 0, s => 0.5 * (s.low + s.high)
  | fuel + 1, s =>
    if s.high - s.low > 2.0 * eps then
      let x := s.trial
      let forward := x > s.tried
      let (from', to') := if forward then (s.tried, x) else (x, s.tried)
      let step := (c.between from' to').length accuracy
      let reached := if forward then s.reached + step else s.reached - step
      let y := reached - target
      let s := { s with tried := x, reached, slack := s.slack * 0.5 }
      if y > 0.0 then search c target accuracy eps fuel { s with high := x, atHigh := y }
      else if y < 0.0 then search c target accuracy eps fuel { s with low := x, atLow := y }
      else x
    else 0.5 * (s.low + s.high)

/-- The parameter at which the length `target` is reached. -/
def atLength (c : Cubic) (target accuracy : Float) : Float :=
  if target <= 0.0 then 0.0
  else
    let total := c.length accuracy
    if target >= total then 1.0
    else
      let eps := accuracy / total
      let steps := 1.0 - Scalar.lesser eps.log2.ceil 0.0
      let inner := accuracy / steps
      let half := Scalar.toNat (Scalar.greater ((1.0 / eps).log2.ceil - 1.0) 0.0)
      let slack := eps * Decimal.nearest (Decimal.pow2 (half + 1)) 1
      c.search target inner eps 4096
        { low := 0.0, high := 1.0, atLow := -target, atHigh := total - target, slack
          tried := 0.0, reached := 0.0 }

end ArtCanvas.Cubic
