import ArtCanvas.Proofs.Script.Writing
import ArtCanvas.Script.Emitter

/-!
# Scripts as trees

Each part of a script is a piece of code, a tree of lines and blocks. Emitting the part makes the
calls that write the tree, so every block that an emitter opens is closed again by it, wherever it
ends.

* `Emitter.Makes`: the calls that an emitter makes, whatever calls were made before.
* `Script.code`: the tree of a script.
* `Script.calls_eq`, `Script.text_eq`: a script is emitted by writing its tree.
-/

namespace ArtCanvas

open Decimal (coordinate)

/-! ### The calls of emitters -/

namespace Emitter

/-- An emitter makes some calls, whatever calls were made before. -/
def Makes (m : Emitter Unit) (calls : List WriterStep) : Prop :=
  ∀ before : Array WriterStep, m.run before = ((), before ++ calls)

variable {m : Emitter Unit} {next : Unit → Emitter Unit} {calls calls' : List WriterStep}

/-- The calls of an emitter, once they are known. -/
theorem Makes.calls_eq (h : Makes m calls) : m.calls = calls := by
  rw [Emitter.calls, h #[]]
  simp

/-- The calls of an emitter may be put in another way. -/
theorem Makes.congr (h : Makes m calls) (heq : calls = calls') : Makes m calls' := heq ▸ h

/-- An emitter that does nothing makes no calls. -/
theorem makes_pure : Makes (pure ()) [] := fun _ => rfl

/-- A call is one step. -/
theorem makes_call (step : WriterStep) : Makes (call step) [step] := fun _ => rfl

theorem makes_line (text : String) : Makes (line text) [.line text] := makes_call _

theorem makes_blank : Makes blank [.blank] := makes_call _

theorem makes_openBlock (text : String) : Makes (openBlock text) [.openBlock text] := makes_call _

theorem makes_closeBlock (text : String) : Makes (closeBlock text) [.closeBlock text] :=
  makes_call _

/-- Of two emitters, the calls of the second one follow those of the first one. -/
theorem Makes.bind (h : Makes m calls) (h' : Makes (next ()) calls') :
    Makes (m >>= next) (calls ++ calls') := by
  intro before
  rw [StateT.run_bind, h before]
  exact (h' _).trans (congrArg (Prod.mk ()) (Array.toList_inj.mp (by simp)))

/-- What is emitted under a condition is nothing if the condition fails. -/
theorem Makes.when {c : Prop} [Decidable c] (h : Makes m calls) :
    Makes (if c then m else pure ()) (if c then calls else []) := by
  split
  · exact h
  · exact makes_pure

/-- A loop makes the calls of its rounds one after the other. -/
theorem makes_forM {α : Type} {f : α → Emitter Unit} {callsOf : α → List WriterStep}
    (h : ∀ a, Makes (f a) (callsOf a)) (l : List α) : Makes (l.forM f) (l.flatMap callsOf) := by
  induction l with
  | nil => exact makes_pure
  | cons a l ih => exact (h a).bind ih

/-- Lines are written one by one. -/
theorem makes_lines (texts : List String) : Makes (lines texts) (texts.map .line) := by
  rw [List.map_eq_flatMap]
  exact makes_forM makes_line texts

end Emitter

/-! ### Trees -/

namespace Code

/-- The steps of two parts follow each other. -/
theorem stepsOf_append (code code' : List Code) :
    stepsOf (code ++ code') = stepsOf code ++ stepsOf code' := by
  induction code with
  | nil => rfl
  | cons piece code ih => rw [List.cons_append, stepsOf, stepsOf, ih, List.append_assoc]

/-- The steps of several parts follow each other. -/
theorem stepsOf_flatMap {α : Type} (f : α → List Code) (l : List α) :
    stepsOf (l.flatMap f) = l.flatMap fun a => stepsOf (f a) := by
  induction l with
  | nil => rfl
  | cons a l ih => rw [List.flatMap_cons, stepsOf_append, ih, List.flatMap_cons]

end Code

open Emitter

namespace Scope

/-- A scope is emitted as its code is laid out. -/
theorem makes_emit (ctx : String) (s : Scope) :
    Makes (s.emit ctx) (Code.stepsOf (s.code ctx)) := by
  refine ((makes_lines _).bind (makes_forM (fun stmt => makes_lines _) _)).congr ?_
  simp [code, Stmt.code, Code.stepsOf_append, Code.stepsOf_flatMap, Code.stepsOf, Code.steps,
    List.map_eq_flatMap, List.flatMap_assoc]

end Scope

namespace SymbolFunction

/-- The function as code. -/
def code (ctx : String) (f : SymbolFunction) : List Code :=
  [.block ("function " ++ functionLine (Identifier.escape f.name) ctx) (f.scope.code ctx) "\x7d",
    .blank]

/-- The function of a symbol is emitted as its code is laid out. -/
theorem makes_emit (ctx : String) (f : SymbolFunction) :
    Makes (f.emit ctx) (Code.stepsOf (f.code ctx)) := by
  refine ((makes_openBlock _).bind <| (f.scope.makes_emit ctx).bind <|
    (makes_closeBlock _).bind makes_blank).congr ?_
  simp [code, Code.stepsOf, Code.steps]

end SymbolFunction

namespace Tile

/-- The block as code. -/
def code (ctx : String) (t : Tile) : List Code :=
  let canvas := s!"canvas{t.canvas}"
  [.line ("// " ++ t.name),
    .block "\x7b"
      ([.line ("const " ++ canvas ++ " = " ++ canvasExpression (tileElement t.canvas) ++ ";"),
          .line (canvas ++ ".width = " ++ coordinate t.width ++ ";"),
          .line (canvas ++ ".height = " ++ coordinate t.height ++ ";"),
          .line ("const " ++ ctx ++ " = " ++ canvas ++ ".getContext(\"2d\")!;")]
        ++ t.scope.code ctx)
      "\x7d"]

/-- A hidden canvas is emitted as its code is laid out. -/
theorem makes_emit (ctx : String) (t : Tile) :
    Makes (t.emit ctx) (Code.stepsOf (t.code ctx)) := by
  refine ((makes_line _).bind <| (makes_openBlock _).bind <| (makes_line _).bind <|
    (makes_line _).bind <| (makes_line _).bind <| (makes_line _).bind <|
    (t.scope.makes_emit ctx).bind (makes_closeBlock _)).congr ?_
  simp [code, Code.stepsOf, Code.steps]

end Tile

/-- The function that paints all hidden canvases; without one there is none. -/
def tilesCode (ctx : String) (tiles : List Tile) : List Code :=
  if tiles.isEmpty then []
  else
    [.block "export function drawPatterns(): void \x7b" (tiles.flatMap (Tile.code ctx)) "\x7d",
      .blank]

/-- The function that paints the hidden canvases is emitted as its code is laid out. -/
theorem makes_emitTiles (ctx : String) (tiles : List Tile) :
    Makes (emitTiles ctx tiles) (Code.stepsOf (tilesCode ctx tiles)) := by
  unfold emitTiles tilesCode
  split
  · exact makes_pure
  · refine ((makes_openBlock _).bind <| (makes_forM (Tile.makes_emit ctx) tiles).bind <|
      (makes_closeBlock _).bind makes_blank).congr ?_
    simp [Code.stepsOf, Code.steps, Code.stepsOf_flatMap]

namespace DrawObject

/-- What the object paints, as code. -/
def paintCode (ctx name : String) : Painting → List Code
  | .image _ corner width height =>
    [.line (ctx ++ ".drawImage(" ++ name ++ ".image, "
      ++ coordinates [corner.x, corner.y, width, height] ++ ");")]
  | .art scope => scope.code ctx

/-- The method that paints a draw function is emitted as its code is laid out. -/
theorem makes_emitPainting (ctx name : String) (painting : Painting) :
    Makes (emitPainting ctx name painting) (Code.stepsOf (paintCode ctx name painting)) := by
  cases painting with
  | image file corner width height => exact makes_line _
  | art scope => exact scope.makes_emit ctx

/-- The object as code. -/
def code (ctx : String) (o : DrawObject) : List Code :=
  let name := Identifier.escape o.function
  let image := if o.file?.isSome then [Code.line "image: new Image(),"] else []
  let source := match o.file? with
    | some file => [Code.line (name ++ ".image.src = " ++ Text.quote file ++ ";")]
    | none => []
  .block ("export const " ++ name ++ " = \x7b")
      (.line ("bounds: " ++ o.bounds.literal ++ ",") :: image
        ++ [.block (functionLine "paint" ctx) (paintCode ctx name o.painting) "\x7d,"])
      "\x7d;"
    :: source ++ [.blank]

/-- The object of a draw function is emitted as its code is laid out. -/
theorem makes_emit (ctx : String) (o : DrawObject) :
    Makes (o.emit ctx) (Code.stepsOf (o.code ctx)) := by
  unfold emit code
  dsimp only
  -- an image has two lines more, one in the object and one behind it
  cases o.file? with
  | none =>
    refine ((makes_openBlock _).bind <| (makes_line _).bind <| (makes_openBlock _).bind <|
      (makes_emitPainting ctx _ o.painting).bind <| (makes_closeBlock _).bind <|
      (makes_closeBlock _).bind makes_blank).congr ?_
    simp [Code.stepsOf, Code.steps]
  | some file =>
    refine ((makes_openBlock _).bind <| (makes_line _).bind <| (makes_line _).bind <|
      (makes_openBlock _).bind <| (makes_emitPainting ctx _ o.painting).bind <|
      (makes_closeBlock _).bind <| (makes_closeBlock _).bind <|
      (makes_line _).bind makes_blank).congr ?_
    simp [Code.stepsOf, Code.steps]

end DrawObject

namespace PathObject

/-- The object as code. -/
def code (o : PathObject) : List Code :=
  [.block o.opening
      [.block "[" (o.segments.map fun s => .line (segmentLine s)) "],",
        .line ("[" ++ coordinates o.lengths ++ "],"),
        .line (o.clock.literal ++ ",")]
      ");",
    .blank]

/-- The object of a path is emitted as its code is laid out. -/
theorem makes_emit (o : PathObject) : Makes o.emit (Code.stepsOf o.code) := by
  refine ((makes_openBlock _).bind <| (makes_openBlock _).bind <|
    (makes_forM (fun s => makes_line _) _).bind <| (makes_closeBlock _).bind <|
    (makes_line _).bind <| (makes_line _).bind <| (makes_closeBlock _).bind makes_blank).congr ?_
  simp [code, Code.stepsOf, Code.steps, Code.stepsOf_flatMap, List.map_eq_flatMap]

end PathObject

/-- The clocks of the draw functions as code. -/
def clocksCode (clocks : List ClockObject) : List Code :=
  if clocks.isEmpty then []
  else
    (clocks.map fun o => .line o.declaration) ++ [.blank]

/-- The declarations of clocks are emitted as their code is laid out. -/
theorem makes_emitClocks (clocks : List ClockObject) :
    Makes (emitClocks clocks) (Code.stepsOf (clocksCode clocks)) := by
  have hlines := makes_forM (fun o : ClockObject => makes_line o.declaration) clocks
  unfold emitClocks clocksCode
  split
  next hnone =>
    rw [List.isEmpty_iff.mp hnone]
    exact makes_pure.bind makes_pure
  next =>
    refine (hlines.bind makes_blank).congr ?_
    simp [Code.stepsOf_append, Code.stepsOf_flatMap, List.map_eq_flatMap, Code.stepsOf, Code.steps]

namespace Script

variable (o : EmitOptions) (s : Script)

/-- The clock code, if the script carries it. -/
def runtimeCode : List Code :=
  if s.startup.isSome && o.includeRuntime then Runtime.lines.map .line ++ [.blank] else []

/-- The function that paints a frame. -/
def frameCode : List Code :=
  let ctx := o.contextName
  [.block ("export function " ++ functionLine "drawFrame" ctx)
      (.line (ctx ++ ".clearRect(0, 0, " ++ coordinates [s.bounds.width, s.bounds.height] ++ ");")
        :: ((s.frameBody o).flatMap (FrameStmt.lines ctx)).map .line)
      "\x7d",
    .blank]

/-- What happens at the start after the page is set up. -/
def startCode : List Code :=
  let frame := "drawFrame(" ++ o.contextName ++ ");"
  match s.startup with
  | none => [.line frame]
  | some startup =>
    startup.wirings.map (fun w => .line w.line)
      ++ startup.starts.map (fun clock => .line clock.startLine)
      ++ [.block "setInterval(() => \x7b" [.line "updateClocks();", .line frame]
        ("\x7d, 1000 / " ++ coordinate o.fps ++ ");")]

/-- What sets up the page. -/
def pageCode : List Code :=
  [.line ("canvas.width = " ++ coordinate s.bounds.width ++ ";"),
      .line ("canvas.height = " ++ coordinate s.bounds.height ++ ";"),
      .line ("const " ++ o.contextName ++ " = canvas.getContext(\"2d\")!;")]
    ++ if s.tiles.isEmpty then [] else [.line "drawPatterns();"]

/-- The function that sets up the page and starts painting. -/
def renderCode : List Code :=
  [.block ("export function render(canvas: HTMLCanvasElement = " ++ canvasExpression o.canvasId
        ++ "): void \x7b")
      (s.pageCode o ++ s.startCode o)
      "\x7d"]

/-- The summary, if it is asked for. -/
def summaryCode : List Code :=
  if o.debug then .blank :: s.summary.map fun line => .line ("// " ++ line) else []

/-- The whole script as code. -/
def code : List Code :=
  let ctx := o.contextName
  [.line "// Generated by canvas-export. Do not edit.", .blank]
    ++ s.runtimeCode o
    ++ [.line ("export const bounds = " ++ s.bounds.literal ++ ";"), .blank]
    ++ s.symbols.flatMap (SymbolFunction.code ctx)
    ++ tilesCode ctx s.tiles
    ++ s.objects.flatMap (DrawObject.code ctx)
    ++ s.paths.flatMap PathObject.code
    ++ clocksCode s.clocks
    ++ s.frameCode o
    ++ s.renderCode o
    ++ s.summaryCode o


variable {o s}

/-- The function that paints a frame is emitted as its code is laid out. -/
theorem makes_emitFrame : Makes (s.emitFrame o) (Code.stepsOf (s.frameCode o)) := by
  refine ((makes_openBlock _).bind <| (makes_line _).bind <|
    (makes_forM (fun stmt => makes_lines _) _).bind <|
    (makes_closeBlock _).bind makes_blank).congr ?_
  simp [frameCode, Code.stepsOf, Code.steps, Code.stepsOf_flatMap, List.map_eq_flatMap,
    List.flatMap_assoc]

/-- The runtime code is emitted as it is laid out, or not at all. -/
theorem makes_emitRuntime : Makes (s.emitRuntime o) (Code.stepsOf (s.runtimeCode o)) := by
  refine ((makes_lines _).bind makes_blank).when.congr ?_
  unfold runtimeCode
  split
  · simp [Code.stepsOf_append, Code.stepsOf_flatMap, Code.stepsOf, Code.steps, List.map_eq_flatMap]
  · rfl

/-- The constants of the page are emitted as their code is laid out. -/
theorem makes_emitPage : Makes (s.emitPage o) (Code.stepsOf (s.pageCode o)) := by
  unfold emitPage pageCode
  split
  next =>
    exact (makes_line _).bind <| (makes_line _).bind <| (makes_line _).bind makes_pure
  next =>
    exact (makes_line _).bind <| (makes_line _).bind <| (makes_line _).bind (makes_line _)

/-- Both exits of the function that sets up the page close it. -/
theorem makes_emitRender : Makes (s.emitRender o) (Code.stepsOf (s.renderCode o)) := by
  unfold emitRender renderCode startCode
  dsimp only
  cases s.startup with
  | none =>
    refine ((makes_openBlock _).bind <| makes_emitPage.bind <|
      (makes_line _).bind (makes_closeBlock _)).congr ?_
    simp [Code.stepsOf_append, Code.stepsOf, Code.steps]
  | some startup =>
    refine ((makes_openBlock _).bind <| makes_emitPage.bind <|
      (makes_forM (fun w => makes_line _) _).bind <|
      (makes_forM (fun clock => makes_line _) _).bind <| (makes_openBlock _).bind <|
      (makes_line _).bind <| (makes_line _).bind <| (makes_closeBlock _).bind
      (makes_closeBlock _)).congr ?_
    simp [Code.stepsOf_append, Code.stepsOf_flatMap, Code.stepsOf, Code.steps, List.map_eq_flatMap]

/-- The remarks of a summary are emitted as they are laid out, or not at all. -/
theorem makes_emitSummary : Makes (s.emitSummary o) (Code.stepsOf (s.summaryCode o)) := by
  refine (makes_blank.bind (makes_forM (fun text => makes_line _) _)).when.congr ?_
  unfold summaryCode
  split
  · simp [Code.stepsOf_flatMap, Code.stepsOf, Code.steps, List.map_eq_flatMap]
  · rfl

/-- A whole script is emitted as its code is laid out: what is opened and closed call by call is the
tree. -/
theorem makes_emit : Makes (s.emit o) (Code.stepsOf (s.code o)) := by
  refine ((makes_line _).bind <| makes_blank.bind <| makes_emitRuntime.bind <|
    (makes_line _).bind <| makes_blank.bind <|
    (makes_forM (SymbolFunction.makes_emit _) s.symbols).bind <|
    (makes_emitTiles _ s.tiles).bind <| (makes_forM (DrawObject.makes_emit _) s.objects).bind <|
    (makes_forM PathObject.makes_emit s.paths).bind <| (makes_emitClocks s.clocks).bind <|
    makes_emitFrame.bind <| makes_emitRender.bind makes_emitSummary).congr ?_
  simp [code, Code.stepsOf_append, Code.stepsOf_flatMap, Code.stepsOf, Code.steps]

/-- The calls that write a script are the steps of its tree. -/
theorem calls_eq (o : EmitOptions) (s : Script) : s.calls o = Code.stepsOf (s.code o) :=
  makes_emit.calls_eq

/-- The text of a script is that of its tree. -/
theorem text_eq (o : EmitOptions) (s : Script) : s.text o = Code.render (s.code o) := by
  rw [text, calls_eq, Code.render]

end Script

end ArtCanvas
