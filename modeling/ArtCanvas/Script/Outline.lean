import ArtCanvas.Compile.Pattern
import ArtCanvas.Script.Statement

/-!
# From art to drawing statements

A renderer turns nodes into statements. `Outline.renderer` is the built-in one: it paints the
outline of each node with its paints, then what is below the node, and calls a function for each
symbol.

As in a scan, every step down uses up one level, and art below the last level is left out.
-/

namespace ArtCanvas

/-- A way to turn art into drawing statements. -/
structure Renderer where
  /-- The statements for a node and what is below it. The map leads to the space that is painted
  in. -/
  node : Artwork → Affine Float → Nat → Except Failure (List Stmt)
  /-- The statements for the art of a symbol, from a first node on. -/
  symbol : Artwork → Affine Float → Nat → Option Nat → Except Failure (List Stmt)

/-- The statements for a node and its siblings. -/
def Renderer.siblings (node : Artwork → Affine Float → Nat → Except Failure (List Stmt))
    (art : Artwork) (transform : Affine Float) (first : Option Nat) : Except Failure (List Stmt) :=
  return ((← (art.siblings first).mapM (node art transform)).flatten)

/-- The renderer that paints the art of a symbol like all other art. -/
def Renderer.ofNode (node : Artwork → Affine Float → Nat → Except Failure (List Stmt)) :
    Renderer where
  node := node
  symbol art transform _ first := Renderer.siblings node art transform first

section Placement

variable {α : Type} [Scalar α]

/-- Where a symbol is painted: the displacement of its upper left corner, and the factors between
the size of its art and the size that is wanted. -/
structure SymbolPlacement (α : Type) where
  /-- The upper left corner. -/
  corner : Point α
  /-- The factors, unless the sizes agree or the art has none. -/
  scale : Option (α × α)

/-- The largest difference from 1 for which a factor is left out. -/
def unitTolerance : α := 1e-9

/-- Places art with box `content` into the box `placed`. -/
def SymbolPlacement.of (transform : Affine α) (placed content : Box α) : SymbolPlacement α :=
  let sx := placed.width / content.width
  let sy := placed.height / content.height
  let sized := !content.isEmpty && decide (0.0 < content.width) && decide (0.0 < content.height)
  let differs := decide (unitTolerance < Scalar.magnitude (sx - 1.0))
    || decide (unitTolerance < Scalar.magnitude (sy - 1.0))
  { corner := transform.apply ⟨placed.left, placed.top⟩
    scale := if sized && differs then some (sx, sy) else none }

end Placement

/-- What the built-in renderer goes by. -/
structure Outline where
  /-- The patterns in use. -/
  patterns : PatternTable
  /-- How many levels of art are painted. -/
  maxDepth : Nat

namespace Outline

variable (o : Outline) (art : Artwork) (transform : Affine Float)

/-- The remark in place of a symbol inside its own art. -/
def recursionNote : String := "recursive symbol instance skipped"

/-- The statements that paint a pattern as a symbol into a box. -/
def callSymbol (placed : Box Float) (p : Pattern) : List Stmt :=
  let place := SymbolPlacement.of transform placed p.bounds
  let scale := match place.scale with
    | some (x, y) => [Stmt.scale x y]
    | none => []
  [.save, .translate place.corner] ++ scale ++ [.callSymbol p.functionName, .restore]

/-- The statements for a symbol. `active` is the symbol whose own art is being painted. -/
def paintSymbol (active : Option Nat) (node : Nat) : List Stmt :=
  match art.symbolPattern node with
  | none => []
  | some handle =>
    if active = some handle then [.comment recursionNote]
    else match o.patterns.find? handle with
      | none => []
      | some p => callSymbol transform (art.bounds node) p

/-- The statements that choose a paint, unless there is nothing to paint with. -/
def choosePaint (node : Nat) (target : PaintTarget) : Option (List Stmt) :=
  match art.paint node target with
  | .none => none
  | .solid => some [.solidStyle target ((art.solidColor node target).getD Color.black).css]
  | .gradient =>
    let b := art.bounds node
    let middle := (b.top + b.bottom) / 2.0
    some (.makeGradient (transform.apply ⟨b.left, middle⟩) (transform.apply ⟨b.right, middle⟩)
      :: (art.gradientStops node target).map (fun stop => .addStop stop.offset stop.color.css)
      ++ [.gradientStyle target])
  | .pattern handle =>
    ((o.patterns.find? handle).bind Pattern.canvas).map fun canvas =>
      [.makePattern canvas, .patternStyle target]

/-- The statements that paint the inside of the current outline. -/
def paintFill (node : Nat) : List Stmt :=
  match o.choosePaint art transform node .fill with
  | some choose => choose ++ [.fill]
  | none => []

/-- The statements that paint the current outline itself. -/
def paintStroke (node : Nat) : List Stmt :=
  match o.choosePaint art transform node .stroke with
  | some choose => choose ++ [.lineWidth (art.strokeWidth node), .stroke]
  | none => []

/-- The statements for the outline of a node. Without an outline or without a paint there are
none. -/
def paintOutline (node : Nat) : List Stmt :=
  match art.path node with
  | none => []
  | some path =>
    if path.isEmpty || (art.paint node .fill == .none && art.paint node .stroke == .none) then []
    else
      .outline node (path.transform transform)
        :: o.paintFill art transform node ++ o.paintStroke art transform node

/-- Statements that are painted with a part of the scope's opacity. -/
def withOpacity (opacity : Float) (body : List Stmt) : List Stmt :=
  if opacity != 1.0 then .setAlpha opacity :: body ++ [.resetAlpha] else body

/-- The statements for a node and what is below it, with a number of levels left. -/
def paintNode (active : Option Nat) : Nat → Nat → List Stmt
  | 0, _ => []
  | levels + 1, node =>
    if art.isHidden node then []
    else
      let below (first : Option Nat) : List Stmt :=
        (art.siblings first).flatMap (paintNode active levels)
      withOpacity (art.opacity node) <|
        match art.kind node with
        | .symbol => o.paintSymbol art transform active node
        | .pluginGroup =>
          match art.pluginResult node with
          | some result => below (art.firstChild result)
          | none => []
        | .plain => o.paintOutline art transform node ++ below (art.firstChild node)

/-- The statements for art outside of symbols. -/
def paint (node : Nat) : List Stmt := o.paintNode art transform none o.maxDepth node

/-- The statements for the art of a symbol. -/
def paintContent (symbol : Nat) (first : Option Nat) : List Stmt :=
  (art.siblings first).flatMap (o.paintNode art transform (some symbol) o.maxDepth)

/-- The built-in renderer. -/
def renderer : Renderer where
  node art transform node := .ok (o.paint art transform node)
  symbol art transform symbol first := .ok (o.paintContent art transform symbol first)

end Outline

end ArtCanvas
