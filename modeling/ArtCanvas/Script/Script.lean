import ArtCanvas.Compile.Compiled
import ArtCanvas.Script.Frame
import ArtCanvas.Script.Outline

/-!
# Scripts

A script is what is written for a compiled document, part by part and before it is text: functions
for symbols, blocks that paint the hidden canvases, an object for each draw function, the paths, the
clocks, and what happens in each frame and at the start.

`Compiled.script` makes the parts. Nothing here decides how they are spelled.
-/

namespace ArtCanvas

/-- A function that paints a symbol. -/
structure SymbolFunction where
  /-- The name of the function. -/
  name : String
  /-- What it does. -/
  scope : Scope
  deriving Repr

/-- A block that paints a hidden canvas. -/
structure Tile where
  /-- The name of the pattern. -/
  name : String
  /-- The number of the canvas. -/
  canvas : Nat
  /-- The width of the canvas. -/
  width : Float
  /-- The height of the canvas. -/
  height : Float
  /-- What is painted. -/
  scope : Scope
  deriving Repr

/-- What a draw object paints. -/
inductive Painting where
  /-- An image file, at a corner and with a size. -/
  | image (file : String) (corner : Point Float) (width height : Float)
  /-- Art. -/
  | art (scope : Scope)
  deriving Repr

/-- The object of a draw function. -/
structure DrawObject where
  /-- The name of the function. -/
  function : String
  /-- The box around the art. -/
  bounds : Box Float
  /-- What is painted. -/
  painting : Painting
  deriving Repr

/-- The object of an animation function. -/
structure PathObject where
  /-- The name of the function. -/
  function : String
  /-- The path on the page. -/
  segments : List Cubic
  /-- The lengths of its segments. -/
  lengths : List Float
  /-- The clock for progress along the path. -/
  clock : Clock Float
  deriving Repr

/-- A clock that a script refers to. -/
inductive ClockRef where
  /-- The clock of an animation function. -/
  | ofPath (function : String)
  /-- A clock of a draw function. -/
  | ofDraw (function : String) (kind : ClockKind)
  deriving DecidableEq, Repr

/-- A clock of a draw function as it is declared. -/
structure ClockObject where
  /-- The name of the function. -/
  function : String
  /-- The clock. -/
  clock : Clock Float
  deriving Repr

/-- A clock that is told to do something when another one reports something. -/
structure Wiring where
  /-- The clock that is listened to. -/
  source : ClockRef
  /-- What is listened for. -/
  event : ClockEvent
  /-- The clock that is driven. -/
  target : ClockRef
  /-- What it is told to do. -/
  action : ClockAction
  deriving DecidableEq, Repr

/-- What happens with the clocks at the start of an animated script. -/
structure Startup where
  /-- The clocks that listen to others. -/
  wirings : List Wiring
  /-- The clocks that are started at once. -/
  starts : List ClockRef
  deriving Repr

/-- A script before it is text. -/
structure Script where
  /-- The box of the page. -/
  bounds : Box Float
  /-- The functions that paint symbols. -/
  symbols : List SymbolFunction
  /-- The blocks that paint the hidden canvases. -/
  tiles : List Tile
  /-- The objects of the draw functions. -/
  objects : List DrawObject
  /-- The objects of the animation functions. -/
  paths : List PathObject
  /-- The clocks of the draw functions. -/
  clocks : List ClockObject
  /-- What is painted in a frame. -/
  frame : List FrameCall
  /-- What happens with clocks at the start, if anything can move. -/
  startup : Option Startup
  /-- The lines of the summary. -/
  summary : List String
  deriving Repr

/-- The map from a document to the space in which the art of a box is painted. -/
def Box.contentTransform (b : Box Float) : Affine Float :=
  if b.isEmpty then Affine.flip else b.page

/-- A clock of a function, as scripts refer to it. -/
def ArtFunction.clockRef (f : ArtFunction) (kind : ClockKind) : ClockRef :=
  match f with
  | .animation f => .ofPath f.header.name
  | .draw f => .ofDraw f.header.name kind

namespace Compiled

variable (c : Compiled) (art : Artwork) (r : Renderer)

/-- The function that paints a symbol. -/
def symbolFunction (p : Pattern) : Except Failure SymbolFunction := do
  let body ← r.symbol art p.bounds.contentTransform p.handle p.content
  return { name := p.functionName, scope := { locals := p.features, body } }

/-- The block that paints the hidden canvas of a pattern. -/
def tile (entry : Pattern × Nat) : Except Failure Tile := do
  let (p, canvas) := entry
  let body ← Renderer.siblings r.node art p.bounds.contentTransform p.content
  return { name := p.name, canvas, width := p.bounds.extent.1, height := p.bounds.extent.2
           scope := { locals := p.features, body } }

/-- What a draw function paints. -/
def painting (f : DrawFunction) : Except Failure Painting := do
  let transform := f.placement.localTransform c.bounds
  match f.imageFile with
  | some file =>
    let b := f.header.bounds
    return .image file (transform.apply ⟨b.left, b.top⟩) b.extent.1 b.extent.2
  | none =>
    let bodies ← f.layers.mapM fun layer =>
      Renderer.siblings r.node art transform (c.layers[layer]?.bind Layer.art)
    return .art { locals := f.features, body := bodies.flatten }

/-- The object of a draw function. -/
def drawObject (f : DrawFunction) : Except Failure DrawObject := do
  return { function := f.header.name, bounds := f.header.bounds, painting := ← c.painting art r f }

/-- The object of an animation function. -/
def pathObject (f : MotionFunction) : PathObject :=
  let page := c.bounds.contentTransform
  { function := f.header.name
    segments := f.segments.map fun s =>
      ⟨page.apply s.p0, page.apply s.p1, page.apply s.p2, page.apply s.p3⟩
    lengths := f.lengths
    clock := f.pathClock }

/-- The triggers whose source is known, with the positions of the functions that have them. -/
def resolvedTriggers : List (Nat × Trigger × Nat) :=
  c.functions.functions.zipIdx.flatMap fun (f, i) =>
    f.triggers.filterMap fun t => t.source.map fun source => (i, t, source)

/-- Whether a clock is driven by a trigger whose source is known. -/
def isTarget (function : Nat) (kind : ClockKind) : Bool :=
  c.resolvedTriggers.any fun (i, t, _) => i == function && t.target == kind

/-- Whether a clock is listened to. -/
def isSource (function : Nat) (kind : ClockKind) : Bool :=
  c.resolvedTriggers.any fun (_, t, source) => source == function && t.sourceClock == kind

/-- The clocks of a draw function that are declared: those that run, are driven or are listened
to. -/
def clockObjects (entry : Nat × DrawFunction) : List ClockObject :=
  let (i, f) := entry
  let declared := f.clocks.filter fun clock =>
    clock.isActive || c.isTarget i clock.kind || c.isSource i clock.kind
  declared.map fun clock => { function := f.header.name, clock }

/-- How a draw function is brought to its place. -/
def approach (f : DrawFunction) : Approach :=
  match f.animation.bind fun i => c.functions.functions[i]? with
  | some g => .follow g.name f.orientation
  | none =>
    match f.placement.reposition c.bounds with
    | some offset => .move offset
    | none => .stay

/-- The painting of a draw function in a frame. -/
def frameCall (f : DrawFunction) : FrameCall :=
  { function := f.header.name
    approach := c.approach f
    clocks := f.activeClocks.map Clock.kind
    originSet := f.originSet }

/-- A trigger whose source is known, as a wiring. -/
def wiring? (entry : Nat × Trigger × Nat) : Option Wiring := do
  let (i, t, source) := entry
  let f ← c.functions.functions[i]?
  let g ← c.functions.functions[source]?
  return { source := g.clockRef t.sourceClock, event := t.event, target := f.clockRef t.target
           action := t.action }

/-- The clocks of a function that are started at once: those that run and are not driven. -/
def startsOf (entry : ArtFunction × Nat) : List ClockRef :=
  let (f, i) := entry
  (f.clocks.filter fun clock => clock.isActive && !c.isTarget i clock.kind).map fun clock =>
    f.clockRef clock.kind

/-- What happens with clocks at the start. -/
def startup : Startup :=
  { wirings := c.resolvedTriggers.filterMap c.wiring?
    starts := c.functions.functions.zipIdx.flatMap c.startsOf }

/-- The line of a pattern in the summary. -/
def patternLine (p : Pattern) : String :=
  "pattern " ++ p.name ++ ": symbol=" ++ toString p.isSymbol ++ ", canvas="
    ++ (p.canvas.map toString).getD "none"

/-- The summary of functions, patterns and warnings. -/
def summaryLines : List String :=
  c.functions.summaryLines ++ c.patterns.patterns.map patternLine
    ++ c.warnings.map fun w => "warning: " ++ w.text

/-- The script of a compiled document. -/
def script : Except Failure Script := do
  let symbols ← c.patterns.symbols.mapM (symbolFunction art r)
  let tiles ← (c.patterns.tiles.filterMap fun p => p.canvas.map fun canvas => (p, canvas)).mapM
    (tile art r)
  let objects ← c.functions.draws.mapM fun (_, f) => c.drawObject art r f
  return {
    bounds := c.bounds
    symbols, tiles, objects
    paths := c.functions.animations.map fun (_, f) => c.pathObject f
    clocks := c.functions.draws.flatMap c.clockObjects
    frame := c.functions.draws.map fun (_, f) => c.frameCall f
    startup := if c.animated then some c.startup else none
    summary := c.summaryLines }

end Compiled

end ArtCanvas
