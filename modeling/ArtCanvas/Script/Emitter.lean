import ArtCanvas.Script.Printer

/-!
# Emitting scripts

A script is written part by part, each part by the calls of a code writer in the order in which they
are made: lines, the openings of blocks, and their ends. Parts that are missing are left out, and
the function that sets up the page ends early where nothing can move.
-/

namespace ArtCanvas

open Decimal (coordinate)
open Emitter (line blank openBlock closeBlock lines)

/-- Declares the local variables of a scope and writes its statements. -/
def Scope.emit (ctx : String) (s : Scope) : Emitter Unit := do
  lines (declarations ctx s.locals)
  s.body.forM fun stmt => lines (stmt.lines ctx)

/-- Writes a function that paints a symbol. -/
def SymbolFunction.emit (ctx : String) (f : SymbolFunction) : Emitter Unit := do
  openBlock ("function " ++ functionLine (Identifier.escape f.name) ctx)
  f.scope.emit ctx
  closeBlock "\x7d"
  blank

/-- Writes a block that paints a hidden canvas. -/
def Tile.emit (ctx : String) (t : Tile) : Emitter Unit := do
  let canvas := s!"canvas{t.canvas}"
  line ("// " ++ t.name)
  openBlock "\x7b"
  line ("const " ++ canvas ++ " = " ++ canvasExpression (tileElement t.canvas) ++ ";")
  line (canvas ++ ".width = " ++ coordinate t.width ++ ";")
  line (canvas ++ ".height = " ++ coordinate t.height ++ ";")
  line ("const " ++ ctx ++ " = " ++ canvas ++ ".getContext(\"2d\")!;")
  t.scope.emit ctx
  closeBlock "\x7d"

/-- Writes the function that paints all hidden canvases; without one there is none. -/
def emitTiles (ctx : String) (tiles : List Tile) : Emitter Unit := do
  if tiles.isEmpty then return
  openBlock "export function drawPatterns(): void \x7b"
  tiles.forM (Tile.emit ctx)
  closeBlock "\x7d"
  blank

namespace DrawObject

/-- Writes what an object paints. -/
def emitPainting (ctx name : String) : Painting → Emitter Unit
  | .image _ corner width height =>
    line (ctx ++ ".drawImage(" ++ name ++ ".image, "
      ++ coordinates [corner.x, corner.y, width, height] ++ ");")
  | .art scope => scope.emit ctx

/-- Writes the object of a draw function. The source of an image is set behind the object. -/
def emit (ctx : String) (o : DrawObject) : Emitter Unit := do
  let name := Identifier.escape o.function
  openBlock ("export const " ++ name ++ " = \x7b")
  line ("bounds: " ++ o.bounds.literal ++ ",")
  if o.file?.isSome then line "image: new Image(),"
  openBlock (functionLine "paint" ctx)
  emitPainting ctx name o.painting
  closeBlock "\x7d,"
  closeBlock "\x7d;"
  if let some file := o.file? then
    line (name ++ ".image.src = " ++ Text.quote file ++ ";")
  blank

end DrawObject

/-- Writes the object of an animation function. -/
def PathObject.emit (o : PathObject) : Emitter Unit := do
  openBlock o.opening
  openBlock "["
  o.segments.forM fun s => line (segmentLine s)
  closeBlock "],"
  line ("[" ++ coordinates o.lengths ++ "],")
  line (o.clock.literal ++ ",")
  closeBlock ");"
  blank

/-- Writes the clocks of the draw functions. -/
def emitClocks (clocks : List ClockObject) : Emitter Unit := do
  clocks.forM fun o => line o.declaration
  unless clocks.isEmpty do blank

namespace Script

variable (o : EmitOptions) (s : Script)

/-- Writes the clock code, if the script carries it. -/
def emitRuntime : Emitter Unit := do
  if s.startup.isSome && o.includeRuntime then
    lines Runtime.lines
    blank

/-- Writes the function that paints a frame. -/
def emitFrame : Emitter Unit := do
  let ctx := o.contextName
  openBlock ("export function " ++ functionLine "drawFrame" ctx)
  line (ctx ++ ".clearRect(0, 0, " ++ coordinates [s.bounds.width, s.bounds.height] ++ ");")
  (s.frameBody o).forM fun stmt => lines (stmt.lines ctx)
  closeBlock "\x7d"
  blank

/-- Sets up the page, and the hidden canvases if there are any. -/
def emitPage : Emitter Unit := do
  line ("canvas.width = " ++ coordinate s.bounds.width ++ ";")
  line ("canvas.height = " ++ coordinate s.bounds.height ++ ";")
  line ("const " ++ o.contextName ++ " = canvas.getContext(\"2d\")!;")
  unless s.tiles.isEmpty do line "drawPatterns();"

/-- Writes the function that sets up the page and starts painting. Where nothing can move it paints
one frame and ends. -/
def emitRender : Emitter Unit := do
  let frame := "drawFrame(" ++ o.contextName ++ ");"
  openBlock ("export function render(canvas: HTMLCanvasElement = " ++ canvasExpression o.canvasId
    ++ "): void \x7b")
  s.emitPage o
  let some startup := s.startup
    | do
      line frame
      closeBlock "\x7d"
  startup.wirings.forM fun w => line w.line
  startup.starts.forM fun clock => line clock.startLine
  openBlock "setInterval(() => \x7b"
  line "updateClocks();"
  line frame
  closeBlock ("\x7d, 1000 / " ++ coordinate o.fps ++ ");")
  closeBlock "\x7d"

/-- Writes the summary, if it is asked for. -/
def emitSummary : Emitter Unit := do
  if o.debug then
    blank
    s.summary.forM fun text => line ("// " ++ text)

/-- Writes the whole script. -/
def emit : Emitter Unit := do
  let ctx := o.contextName
  line "// Generated by canvas-export. Do not edit."
  blank
  s.emitRuntime o
  line ("export const bounds = " ++ s.bounds.literal ++ ";")
  blank
  s.symbols.forM (SymbolFunction.emit ctx)
  emitTiles ctx s.tiles
  s.objects.forM (DrawObject.emit ctx)
  s.paths.forM PathObject.emit
  emitClocks s.clocks
  s.emitFrame o
  s.emitRender o
  s.emitSummary o

/-- The calls of a code writer that write the script. -/
def calls : List WriterStep := (s.emit o).calls

/-- The text of the script. -/
def text : String := (CodeWriter.run {} (s.calls o)).text

end Script

namespace Compiled

/-- Writes the script of a compiled document with a given renderer. -/
def emitWith (c : Compiled) (art : Artwork) (o : EmitOptions) (r : Renderer) :
    Except Failure String :=
  return (← c.script art r).text o

/-- The built-in renderer for the patterns of a compiled document. -/
def outline (c : Compiled) : Outline :=
  { patterns := c.patterns, maxDepth := ({} : CompileOptions).maxDepth }

/-- Writes the script of a compiled document. -/
def emit (c : Compiled) (art : Artwork) (o : EmitOptions) : Except Failure String :=
  c.emitWith art o c.outline.renderer

end Compiled

end ArtCanvas
