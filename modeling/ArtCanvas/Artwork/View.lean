import ArtCanvas.Artwork.Validity

/-!
# Art as hosts show it

The compiler sees art through a read-only view, so that any program that holds layered art can be a
host. The second half of the view is optional: it describes outlines and colours, and a host that
has nothing to say about them leaves it out. `ArtDocument.view` is the view of a document.

Positions that a host does not know are allowed everywhere; they stand for empty hidden art.
-/

namespace ArtCanvas

/-- The kind of a paint, without its colours. -/
inductive PaintKind where
  | none
  | solid
  | gradient
  | pattern (index : Nat)
  deriving DecidableEq, Repr, Inhabited

/-- The kind of a paint. -/
def Paint.kind : Paint → PaintKind
  | .none => .none
  | .solid _ => .solid
  | .gradient _ => .gradient
  | .pattern index => .pattern index

/-- A read-only view of layered art. -/
structure Artwork where
  /-- How many layers there are. -/
  layerCount : Nat
  /-- How many nodes there are. A list of siblings is never longer. -/
  nodeCount : Nat
  /-- Whether a layer is shown. -/
  isLayerVisible : Nat → Bool
  /-- The name of a layer. -/
  layerName : Nat → String
  /-- The first node of a layer. -/
  firstArt : Nat → Option Nat
  /-- The first node below a node. -/
  firstChild : Nat → Option Nat
  /-- The node beside a node. -/
  nextSibling : Nat → Option Nat
  /-- The box of a node. -/
  bounds : Nat → Box Float
  /-- Whether a node is left out. -/
  isHidden : Nat → Bool
  /-- What a node is. -/
  kind : Nat → NodeKind
  /-- The opacity of a node. -/
  opacity : Nat → Float
  /-- The kind of a paint of a node. -/
  paint : Nat → PaintTarget → PaintKind
  /-- The pattern that a symbol places. -/
  symbolPattern : Nat → Option Nat
  /-- The node whose children are the art of a plugin group. -/
  pluginResult : Nat → Option Nat
  /-- The node with the art of a pattern. -/
  patternContent : Nat → Option Nat
  /-- The name of a pattern. -/
  patternName : Nat → String
  /-- The outline of a node. -/
  path : Nat → Option Path := fun _ => none
  /-- The colour of a paint. -/
  solidColor : Nat → PaintTarget → Option Color := fun _ _ => none
  /-- The colours of a gradient. -/
  gradientStops : Nat → PaintTarget → List GradientStop := fun _ _ => []
  /-- The width of a painted outline. -/
  strokeWidth : Nat → Float := fun _ => 1.0

namespace Artwork

/-- The same art from a host that says nothing about outlines and colours. -/
def bare (art : Artwork) : Artwork :=
  { art with
    path := fun _ => none, solidColor := fun _ _ => none, gradientStops := fun _ _ => []
    strokeWidth := fun _ => 1.0 }

/-- At most `limit` nodes, from a first one on along the siblings. -/
def siblingsUpTo (art : Artwork) : Nat → Option Nat → List Nat
  | 0, _ => []
  | _, none => []
  | limit + 1, some node => node :: siblingsUpTo art limit (art.nextSibling node)

/-- A node and its following siblings. -/
def siblings (art : Artwork) (first : Option Nat) : List Nat :=
  art.siblingsUpTo (art.nodeCount + 1) first

end Artwork

namespace ArtDocument

variable [CurveLibrary] (doc : ArtDocument)

/-- The outline of a node, if it has one that can be read. -/
def outline (node : Nat) : Option Path := do
  (CurveLibrary.parse (← (← doc.nodes[node]?).path)).toOption

/-- The paint of a node; a node that does not exist has none. -/
def paintOf (node : Nat) (target : PaintTarget) : Paint :=
  match doc.nodes[node]? with
  | some n => n.paint target
  | none => .none

/-- The view of a document. -/
def view : Artwork where
  layerCount := doc.layers.size
  nodeCount := doc.nodes.size
  isLayerVisible i := (doc.layers[i]?.map ArtLayer.visible).getD false
  layerName i := (doc.layers[i]?.map ArtLayer.name).getD ""
  firstArt i := doc.layers[i]?.bind ArtLayer.art
  firstChild n := doc.nodes[n]?.bind ArtNode.firstChild
  nextSibling n := doc.nodes[n]?.bind ArtNode.nextSibling
  bounds n := (doc.nodes[n]?.map ArtNode.bounds).getD Box.empty
  isHidden n := (doc.nodes[n]?.map ArtNode.hidden).getD true
  kind n := (doc.nodes[n]?.map ArtNode.kind).getD .plain
  opacity n := (doc.nodes[n]?.map ArtNode.opacity).getD 1.0
  paint n target := (doc.paintOf n target).kind
  symbolPattern n := doc.nodes[n]?.bind ArtNode.symbol
  pluginResult n := doc.nodes[n]?.bind ArtNode.result
  patternContent p := doc.patterns[p]?.bind ArtPattern.content
  patternName p := (doc.patterns[p]?.map ArtPattern.name).getD ""
  path := doc.outline
  solidColor n target :=
    match doc.paintOf n target with
    | .solid color => some color
    | _ => none
  gradientStops n target :=
    match doc.paintOf n target with
    | .gradient stops => stops
    | _ => []
  strokeWidth n := (doc.nodes[n]?.map ArtNode.strokeWidth).getD 1.0

end ArtDocument

end ArtCanvas
