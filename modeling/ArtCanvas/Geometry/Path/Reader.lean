import ArtCanvas.Decimal.Reading
import ArtCanvas.Geometry.Arc
import ArtCanvas.Geometry.ArcLength

/-!
# Path data

Outlines are written as letters with numbers: `M0 0 L10 0`. A letter may be left out where the last
one repeats, and a small letter counts its points from where the pen stands. Reading ends without an
error at the first character that can start neither a letter command nor a number.

Path data is read by the library of curves, which is not part of the exporter. `Path.parse` stands
for it where the exporter is run, as do arcs and lengths in the modules that this one imports, and
at the end they are joined to a `CurveLibrary`. No theorem is about these functions.
-/

namespace ArtCanvas

/-- Why path data cannot be read. -/
inductive PathError where
  /-- The first command does not put the pen down. -/
  | noMove
  /-- The text ends where a number or a flag is due. -/
  | unexpectedEnd
  /-- A number or a flag is due and something else stands there. -/
  | badNumber
  /-- A letter that is no command. -/
  | unknownCommand (letter : Char)
  deriving DecidableEq, Repr

namespace PathError

/-- The text of the error. -/
def message : PathError → String
  | .noMove => "Uninitialized path (missing moveto command)"
  | .unexpectedEnd => "Unexpected EOF"
  | .badNumber => "Unable to parse a number"
  | .unknownCommand letter => "Unknown command, \"" ++ letter.toString ++ "\""

end PathError

namespace PathReader

/-- A step of reading: it takes characters off the text that is left. -/
abbrev Reader (α : Type) := StateT (List Char) (Except PathError) α

/-- The white space of path data. -/
def isGap (c : Char) : Bool :=
  c == ' ' || c == '\t' || c == '\n' || c == '\x0C' || c == '\r'

/-- Skips white space. -/
def skipGaps : Reader Unit := modify (·.dropWhile isGap)

/-- Skips white space and then one comma, if one stands there. -/
def skipComma : Reader Unit := do
  skipGaps
  modify fun cs => match cs with
    | ',' :: rest => rest
    | cs => cs

/-- Digits with at most one point among them, and the rest. `point` says whether a point may still
come. -/
def takeMantissa (point : Bool) : List Char → List Char × List Char
  | [] => ([], [])
  | c :: cs =>
    if c.isDigit then
      let (taken, rest) := takeMantissa point cs
      (c :: taken, rest)
    else if c = '.' ∧ point then
      let (taken, rest) := takeMantissa false cs
      (c :: taken, rest)
    else ([], c :: cs)

/-- An exponent with at least one digit, if an `e` stands there, and the rest. -/
def takeExponent : List Char → Except PathError (List Char × List Char)
  | [] => .ok ([], [])
  | e :: cs =>
    if e = 'e' ∨ e = 'E' then
      let (sign, cs) := match cs with
        | '-' :: rest => (['-'], rest)
        | '+' :: rest => (['+'], rest)
        | cs => ([], cs)
      let (digits, rest) := Decimal.takeDigits cs
      if digits.isEmpty then .error .badNumber else .ok (e :: sign ++ digits, rest)
    else .ok ([], e :: cs)

/-- A number. -/
def number : Reader Float := do
  skipGaps
  let cs ← get
  if cs.isEmpty then throw .unexpectedEnd
  let (negative, cs) := Decimal.takeSign cs
  let (mantissa, cs) := takeMantissa true cs
  let (exponent, cs) ← (takeExponent cs : Except PathError _)
  match Decimal.readDecimal? (mantissa ++ exponent) with
  | none => throw .badNumber
  | some value =>
    set cs
    return Decimal.withSign negative value

/-- Two numbers, with optional commas after each. -/
def pair : Reader (Point Float) := do
  let x ← number
  skipComma
  let y ← number
  skipComma
  return ⟨x, y⟩

/-- A flag: `0` or `1`. -/
def flag : Reader Bool := do
  skipGaps
  match ← get with
  | [] => throw .unexpectedEnd
  | c :: rest =>
    set rest
    if c = '0' then return false
    else if c = '1' then return true
    else throw .badNumber

/-- Where reading stands between two commands. -/
structure Pen where
  /-- What has been drawn, the last movement first. -/
  drawn : Path := []
  /-- Where the pen stands. -/
  last : Point Float := ⟨0.0, 0.0⟩
  /-- Where the outline at hand began. -/
  first : Point Float := ⟨0.0, 0.0⟩
  /-- The control point that a smooth curve continues from. -/
  control : Option (Point Float) := none
  /-- The command that is meant where no letter stands. -/
  command : Option Char := none
  /-- The point to put the pen down at before the next command, after an outline was closed. -/
  resume : Option (Point Float) := none

namespace Pen

/-- `p` as a point of the plane: small letters count from where the pen stands. -/
def locate (pen : Pen) (letter : Char) (p : Point Float) : Point Float :=
  if letter.isLower then pen.last + p else p

/-- The last control point seen from the other side of where the pen stands. -/
def reflected (pen : Pen) : Point Float :=
  match pen.control with
  | some control => (2.0 : Float) * pen.last - control
  | none => pen.last

/-- Draws `element`, which ends at `endpoint` and leaves `control` behind. -/
def draw (pen : Pen) (letter : Char) (element : PathElement) (endpoint control : Point Float) :
    Pen :=
  { pen with
    drawn := element :: pen.drawn
    last := endpoint
    control := some control
    command := some letter }

end Pen

/-- Reads the arguments of a command other than `M` and draws it. -/
def drawCommand (pen : Pen) (letter : Char) : Reader Pen := do
  let point : Reader (Point Float) := return pen.locate letter (← pair)
  match letter.toUpper with
  | 'L' =>
    let p ← point
    return pen.draw letter (.line p) p p
  | 'H' =>
    let x ← number
    skipComma
    let p : Point Float := ⟨(pen.locate letter ⟨x, 0.0⟩).x, pen.last.y⟩
    return pen.draw letter (.line p) p p
  | 'V' =>
    let y ← number
    skipComma
    let p : Point Float := ⟨pen.last.x, (pen.locate letter ⟨0.0, y⟩).y⟩
    return pen.draw letter (.line p) p p
  | 'Q' =>
    let c ← point
    let p ← point
    return pen.draw letter (.quad c p) p c
  | 'T' =>
    let p ← point
    return pen.draw letter (.quad pen.reflected p) p pen.reflected
  | 'C' =>
    let c₁ ← point
    let c₂ ← point
    let p ← point
    return pen.draw letter (.cubic c₁ c₂ p) p c₂
  | 'S' =>
    let c₂ ← point
    let p ← point
    return pen.draw letter (.cubic pen.reflected c₂ p) p c₂
  | 'A' =>
    let radii ← pair
    let degrees ← number
    skipComma
    let large ← flag
    skipComma
    let sweep ← flag
    skipComma
    let p ← point
    let arc : EndpointArc :=
      { start := pen.last, stop := p, radii, rotation := degrees * (halfTurn / 180.0)
        large, sweep }
    return { pen with
      drawn := arc.toPath.reverse ++ pen.drawn
      last := p
      control := some p
      command := some letter }
  | 'Z' =>
    return { pen with drawn := .close :: pen.drawn, last := pen.first, resume := some pen.first }
  | _ => throw (.unknownCommand letter)

/-- Reads the arguments of a command and draws it. After a closed outline the pen is first put down
where that outline began. -/
def runCommand (pen : Pen) (letter : Char) : Reader Pen := do
  if letter.toUpper = 'M' then
    let p := pen.locate letter (← pair)
    return { pen with
      drawn := .move p :: pen.drawn
      last := p
      first := p
      control := some p
      command := some (if letter = 'm' then 'l' else 'L')
      resume := none }
  else
    if pen.drawn.isEmpty then throw .noMove
    let pen := match pen.resume with
      | some p => { pen with drawn := .move p :: pen.drawn, resume := none }
      | none => pen
    drawCommand pen letter

/-- The command that comes next, if the text goes on: a letter, or the last command again where a
number stands. -/
def nextCommand (pen : Pen) : Reader (Option Char) := do
  skipGaps
  match ← get with
  | [] => return none
  | c :: rest =>
    if c.isAlpha then
      set rest
      return some c
    else if c = '-' ∨ c = '.' ∨ c.isDigit then return pen.command
    else return none

/-- Reads commands until the text ends or stops making sense. Each command takes at least one
character, so the length of the text is fuel enough. -/
def commands : Nat → Pen → Reader Pen
  | 0, pen => return pen
  | fuel + 1, pen => do
    match ← nextCommand pen with
    | none => return pen
    | some letter => commands fuel (← runCommand pen letter)

end PathReader

/-- Reads path data. -/
def Path.parse (text : String) : Except PathError Path :=
  let cs := text.toList
  match (PathReader.commands (cs.length + 1) {}).run cs with
  | .error e => .error e
  | .ok (pen, _) => .ok pen.drawn.reverse

/-- The library that the exporter is run with. -/
instance : CurveLibrary where
  parse text := (Path.parse text).mapError PathError.message
  length := Cubic.length
  atLength := Cubic.atLength

end ArtCanvas
