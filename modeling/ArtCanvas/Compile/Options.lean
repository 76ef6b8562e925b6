import ArtCanvas.Json.Decode
import ArtCanvas.Report.Tree

/-!
# Settings of the compiler and of the script writer

Both have a default for every field. They are read from JSON, and an options file holds both.
-/

namespace ArtCanvas

open Json (withDefault)

/-- Settings of the compiler. -/
structure CompileOptions where
  /-- How many levels of art are scanned. -/
  maxDepth : Nat := 256
  /-- Whether image files are named after functions. -/
  imagesByFunction : Bool := false
  deriving DecidableEq, Repr, Inhabited

/-- Settings of the script writer. -/
structure EmitOptions where
  /-- The page element of the visible canvas. -/
  canvasId : String := "canvas"
  /-- The name of the drawing context in scripts. -/
  contextName : String := "ctx"
  /-- How often an animated page is drawn in a second. -/
  fps : Float := 60.0
  /-- Whether an animated script carries the clock code. -/
  includeRuntime : Bool := true
  /-- Whether origins are marked and a summary is added. -/
  debug : Bool := false
  deriving Repr, Inhabited

namespace CompileOptions

/-- Reads settings. -/
def ofJson? (j : Json) : Option CompileOptions := do
  match ← j.record? ["max_depth", "rasterize_name_from_function"] with
  | [maxDepth, imagesByFunction] =>
    return { maxDepth := ← withDefault 256 (Json.natUpTo? JsonNumber.maxWord) maxDepth
             imagesByFunction := ← withDefault false Json.bool? imagesByFunction }
  | _ => none

/-- Shows settings. -/
def toTree (o : CompileOptions) : Tree :=
  .record [("max_depth", .nat o.maxDepth),
    ("rasterize_name_from_function", .bool o.imagesByFunction)]

end CompileOptions

namespace EmitOptions

/-- Reads settings. -/
def ofJson? (j : Json) : Option EmitOptions := do
  match ← j.record? ["canvas_id", "context_name", "fps", "include_runtime", "debug"] with
  | [canvasId, contextName, fps, includeRuntime, debug] =>
    return { canvasId := ← withDefault "canvas" Json.string? canvasId
             contextName := ← withDefault "ctx" Json.string? contextName
             fps := ← withDefault 60.0 Json.float? fps
             includeRuntime := ← withDefault true Json.bool? includeRuntime
             debug := ← withDefault false Json.bool? debug }
  | _ => none

/-- Shows settings. -/
def toTree (o : EmitOptions) : Tree :=
  .record [("canvas_id", .text o.canvasId), ("context_name", .text o.contextName),
    ("fps", .float o.fps), ("include_runtime", .bool o.includeRuntime), ("debug", .bool o.debug)]

end EmitOptions

/-- What an options file holds. -/
structure OptionsFile where
  /-- Settings of the compiler. -/
  compile : CompileOptions := {}
  /-- Settings of the script writer. -/
  emit : EmitOptions := {}
  deriving Inhabited

namespace OptionsFile

/-- Reads an options file. Fields that it does not have are refused. -/
def ofJson? (j : Json) : Option OptionsFile := do
  match ← j.strictRecord? ["compile", "emit"] with
  | [compile, emit] =>
    return { compile := ← withDefault {} CompileOptions.ofJson? compile
             emit := ← withDefault {} EmitOptions.ofJson? emit }
  | _ => none

/-- Reads the text of an options file. -/
def parse? (text : String) : Option OptionsFile := (Json.parse? text).bind ofJson?

end OptionsFile

end ArtCanvas
