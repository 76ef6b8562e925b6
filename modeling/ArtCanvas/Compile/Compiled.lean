import ArtCanvas.Compile.Assembly
import ArtCanvas.Outcome
import ArtCanvas.Function.Report

/-!
# Compiled documents

Compiling scans the art, makes functions of its layers, finds what functions refer to, and sizes the
page. It fails only if no visible layer has art.
-/

namespace ArtCanvas

/-- A canvas of the page. -/
structure Canvas where
  /-- The number of the canvas; 0 is the page itself. -/
  id : Nat
  /-- The width. -/
  width : Float
  /-- The height. -/
  height : Float
  /-- Whether the canvas is only a source of patterns. -/
  hidden : Bool
  deriving Repr

/-- Whether a canvas number stands for the page itself. -/
def Canvas.isPage (id : Nat) : Bool := id == 0

/-- All that a script is written from. -/
structure Compiled where
  /-- The visible layers, the lowest first. -/
  layers : List Layer
  /-- The functions. -/
  functions : FunctionTable
  /-- The patterns in use. -/
  patterns : PatternTable
  /-- The box of the page. -/
  bounds : Box Float
  /-- The page and the hidden canvases. -/
  canvases : List Canvas
  /-- Whether anything can move. -/
  animated : Bool
  /-- The problems that were found. -/
  warnings : List Warning
  deriving Repr

/-- Shows a canvas. -/
def Canvas.toTree (c : Canvas) : Tree :=
  .record [("id", .nat c.id), ("width", .float c.width), ("height", .float c.height),
    ("hidden", .bool c.hidden)]

/-- Whether the function needs clocks: an animation function does, a draw function if it asks to
move or has a trigger that listens to some clock. -/
def ArtFunction.needsClocks : ArtFunction → Bool
  | .animation _ => true
  | .draw f => f.asksToMove || f.triggers.any (·.source.isSome)

/-- The hidden canvas of a pattern. -/
def Pattern.hiddenCanvas? (p : Pattern) : Option Canvas :=
  p.canvas.map fun id =>
    { id, width := p.bounds.extent.1, height := p.bounds.extent.2, hidden := true }

namespace Compiled

/-- The page as a canvas. -/
def mainCanvas (bounds : Box Float) : Canvas :=
  { id := 0, width := bounds.width, height := bounds.height, hidden := false }

/-- The warnings about layers that ask for the page to be cut to them and have no art. -/
def cropWarnings (layers : List Layer) : List Warning :=
  (layers.filter fun l => l.crop && l.bounds.isEmpty).map fun l => .emptyCrop l.name

/-- The width of the page. -/
def width (c : Compiled) : Float := c.bounds.width

/-- The height of the page. -/
def height (c : Compiled) : Float := c.bounds.height

/-- Shows a compiled document. -/
def toTree (c : Compiled) : Tree :=
  .record [("layers", .list (c.layers.map Layer.toTree)), ("functions", c.functions.toTree),
    ("patterns", c.patterns.toTree), ("bounds", c.bounds.toTree),
    ("canvases", .list (c.canvases.map Canvas.toTree)), ("has_animation", .bool c.animated),
    ("warnings", .list (c.warnings.map Warning.toTree))]

end Compiled

/-- Compiles art. -/
def Artwork.compile [CurveLibrary] (art : Artwork) (options : CompileOptions) :
    Except Failure Compiled :=
  let (scanned, scan) := art.scan options.maxDepth
  let assembly := Assembly.run options art scanned
  let (animationWarnings, functions) := assembly.functions.bindAnimations
  let (triggerWarnings, functions) := functions.bindTriggers
  let patterns := scan.patterns.nameSymbols functions.names
  let layers := assembly.layers
  let bounds := Layer.pageBounds layers
  if bounds.isEmpty then .error .noVisibleContent
  else
    .ok {
      layers, functions, patterns, bounds
      canvases := Compiled.mainCanvas bounds :: patterns.tiles.filterMap Pattern.hiddenCanvas?
      animated := functions.functions.any ArtFunction.needsClocks
      warnings := scan.warnings ++ assembly.warnings ++ animationWarnings ++ triggerWarnings
        ++ Compiled.cropWarnings layers }

end ArtCanvas
