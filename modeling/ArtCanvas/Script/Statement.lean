import ArtCanvas.Artwork.View
import ArtCanvas.Compile.Layer
import ArtCanvas.Script.Code

/-!
# Drawing statements

What a script does on a drawing context, statement by statement. A scope is a function body that
first declares the local variables its statements need and then runs them.
-/

namespace ArtCanvas

open Decimal (coordinate)

/-- A drawing statement. -/
inductive Stmt where
  /-- A remark. -/
  | comment (text : String)
  /-- Paints with the given part of the scope's opacity from here on. -/
  | setAlpha (factor : Float)
  /-- Paints with the scope's opacity from here on. -/
  | resetAlpha
  /-- Keeps the state of the context. -/
  | save
  /-- Goes back to the state that was kept last. -/
  | restore
  /-- Moves the origin. -/
  | translate (p : Point Float)
  /-- Scales both axes. -/
  | scale (x y : Float)
  /-- Paints a symbol. -/
  | callSymbol (function : String)
  /-- Makes the outline of a node the current one. -/
  | outline (node : Nat) (path : Path)
  /-- Paints with a colour. -/
  | solidStyle (target : PaintTarget) (css : String)
  /-- Makes a gradient along a line. -/
  | makeGradient (start stop : Point Float)
  /-- Adds a colour to the gradient. -/
  | addStop (offset : Float) (css : String)
  /-- Paints with the gradient. -/
  | gradientStyle (target : PaintTarget)
  /-- Makes a pattern of a hidden canvas. -/
  | makePattern (canvas : Nat)
  /-- Paints with the pattern. -/
  | patternStyle (target : PaintTarget)
  /-- Paints the inside of the outline. -/
  | fill
  /-- Sets the width of painted outlines. -/
  | lineWidth (width : Float)
  /-- Paints the outline. -/
  | stroke
  deriving Repr

/-- The page element of a hidden canvas. -/
def tileElement (canvas : Nat) : String := s!"pattern{canvas}"

/-- The expression for the page element with a given name, as a canvas. -/
def canvasExpression (element : String) : String :=
  "document.getElementById(" ++ Text.quote element ++ ") as HTMLCanvasElement"

/-- The property of a context that holds a paint. -/
def PaintTarget.property : PaintTarget → String
  | .fill => "fillStyle"
  | .stroke => "strokeStyle"

/-- Coordinates with commas between them. -/
def coordinates (xs : List Float) : String := ", ".intercalate (xs.map coordinate)

/-- A movement of the pen as a statement. -/
def PathElement.statement (ctx : String) : PathElement → String
  | .move p => ctx ++ ".moveTo(" ++ coordinates [p.x, p.y] ++ ");"
  | .line p => ctx ++ ".lineTo(" ++ coordinates [p.x, p.y] ++ ");"
  | .quad c p => ctx ++ ".quadraticCurveTo(" ++ coordinates [c.x, c.y, p.x, p.y] ++ ");"
  | .cubic c₁ c₂ p =>
    ctx ++ ".bezierCurveTo(" ++ coordinates [c₁.x, c₁.y, c₂.x, c₂.y, p.x, p.y] ++ ");"
  | .close => ctx ++ ".closePath();"

namespace Stmt

/-- The lines of a statement, where the context is called `ctx`. -/
def lines (ctx : String) : Stmt → List String
  | .comment text => ["// " ++ text]
  | .setAlpha factor => [ctx ++ ".globalAlpha = alpha * " ++ coordinate factor ++ ";"]
  | .resetAlpha => [ctx ++ ".globalAlpha = alpha;"]
  | .save => [ctx ++ ".save();"]
  | .restore => [ctx ++ ".restore();"]
  | .translate p => [ctx ++ ".translate(" ++ coordinates [p.x, p.y] ++ ");"]
  | .scale x y => [ctx ++ ".scale(" ++ coordinates [x, y] ++ ");"]
  | .callSymbol function => [function ++ "(" ++ ctx ++ ");"]
  | .outline _ path => (ctx ++ ".beginPath();") :: path.map (PathElement.statement ctx)
  | .solidStyle target css => [ctx ++ "." ++ target.property ++ " = " ++ Text.quote css ++ ";"]
  | .makeGradient p q =>
    ["gradient = " ++ ctx ++ ".createLinearGradient(" ++ coordinates [p.x, p.y, q.x, q.y] ++ ");"]
  | .addStop offset css =>
    ["gradient.addColorStop(" ++ coordinate offset ++ ", " ++ Text.quote css ++ ");"]
  | .gradientStyle target => [ctx ++ "." ++ target.property ++ " = gradient;"]
  | .makePattern canvas =>
    ["pattern = " ++ ctx ++ ".createPattern(" ++ canvasExpression (tileElement canvas)
      ++ ", \"repeat\")!;"]
  | .patternStyle target => [ctx ++ "." ++ target.property ++ " = pattern;"]
  | .fill => [ctx ++ ".fill();"]
  | .lineWidth width => [ctx ++ ".lineWidth = " ++ coordinate width ++ ";"]
  | .stroke => [ctx ++ ".stroke();"]

/-- Statements as code. -/
def code (ctx : String) (body : List Stmt) : List Code :=
  (body.flatMap (lines ctx)).map .line

end Stmt

/-- Statements with the local variables that are declared for them. -/
structure Scope where
  /-- What is declared. -/
  locals : Features
  /-- The statements. -/
  body : List Stmt
  deriving Repr

namespace Scope

/-- The declarations of a scope. -/
def declarations (ctx : String) (locals : Features) : List String :=
  (if locals.alpha then ["const alpha = " ++ ctx ++ ".globalAlpha;"] else [])
    ++ (if locals.gradients then ["let gradient: CanvasGradient;"] else [])
    ++ (if locals.patterns then ["let pattern: CanvasPattern;"] else [])

/-- A scope as code. -/
def code (ctx : String) (s : Scope) : List Code :=
  (declarations ctx s.locals).map .line ++ Stmt.code ctx s.body

end Scope

end ArtCanvas
