import ArtCanvas.Artwork.View
import ArtCanvas.Compile.Pattern
import ArtCanvas.Compile.Warning

/-!
# Scanning art

A scan walks the visible art of a layer: the nodes of a list of siblings, below each its children,
and for a plugin group the children of its result. It measures what it visits and registers the
patterns that are used. The art of a pattern is scanned when it is first used, apart from the art
around it.

Every step down uses up one level, so the walk ends whatever the host says. Art below the last level
is left out with a warning.
-/

namespace ArtCanvas

/-- The use of a pattern by a node. -/
structure PatternUse where
  /-- The position of the pattern in the document. -/
  handle : Nat
  /-- The node. -/
  node : Nat
  deriving DecidableEq, Repr

/-- Where a scan stands. -/
structure ScanState where
  /-- What is measured so far of the art at hand. -/
  measure : Measure := {}
  /-- The patterns in use so far. -/
  patterns : PatternTable := {}
  /-- The warnings so far. -/
  warnings : List Warning := []
  /-- The nodes that were visited, the last one first. -/
  visited : List Nat := []
  /-- The first use of each pattern in the table, in the order of the table. -/
  firstUses : List PatternUse := []
  deriving Inhabited

namespace ScanState

/-- Notes that the art at hand needs something. -/
def need (s : ScanState) (features : Features) : ScanState :=
  { s with measure := { s.measure with features := s.measure.features.merge features } }

/-- Visits a node with the given box. -/
def visit (s : ScanState) (node : Nat) (bounds : Box Float) : ScanState :=
  { s with
    measure := { s.measure with bounds := s.measure.bounds.union bounds }
    visited := node :: s.visited }

/-- Adds a warning. -/
def warn (s : ScanState) (w : Warning) : ScanState := { s with warnings := s.warnings ++ [w] }

end ScanState

namespace Artwork

variable (art : Artwork)

/-- What the host says about a pattern. -/
def patternSource (handle : Nat) : PatternSource :=
  let content := art.patternContent handle
  { name := art.patternName handle
    content
    bounds := (content.map art.bounds).getD Box.empty }

section Step

/- How art one level below is scanned. -/
variable (deeper : Option Nat → ScanState → ScanState)

/-- Registers the use of a pattern by a node. The art of a new pattern is scanned on its own, and
its features are kept with the pattern. -/
def usePattern (node handle : Nat) (role : PatternRole) (s : ScanState) : ScanState :=
  match s.patterns.add handle role (art.patternSource handle) with
  | (false, patterns) => { s with patterns }
  | (true, patterns) =>
    let firstUses := s.firstUses ++ [{ handle, node }]
    let inner := deeper (art.patternContent handle) { s with patterns, firstUses, measure := {} }
    { inner with
      measure := s.measure
      patterns := inner.patterns.setFeatures handle inner.measure.features }

/-- Scans what a node is beside its outline: the pattern of a symbol, the result of a plugin
group. -/
def scanKind (node : Nat) (s : ScanState) : ScanState :=
  match art.kind node with
  | .plain => s
  | .symbol =>
    match art.symbolPattern node with
    | some pattern => art.usePattern deeper node pattern .symbol s
    | none => s
  | .pluginGroup =>
    match art.pluginResult node with
    | some result => deeper (art.firstChild result) s
    | none => s

/-- Scans a paint of a node. -/
def scanPaint (node : Nat) (target : PaintTarget) (s : ScanState) : ScanState :=
  match art.paint node target with
  | .pattern pattern =>
    (art.usePattern deeper node pattern .paint s).need { patterns := true }
  | .gradient => s.need { gradients := true }
  | .none | .solid => s

/-- Notes a node that is not fully visible. -/
def scanOpacity (node : Nat) (s : ScanState) : ScanState :=
  if art.opacity node != 1.0 then s.need { alpha := true } else s

/-- Scans a node and what is below it. -/
def scanNode (node : Nat) (s : ScanState) : ScanState :=
  let s := s.visit node (art.bounds node)
  let s := art.scanKind deeper node s
  let s := art.scanOpacity node s
  let s := art.scanPaint deeper node .fill s
  let s := art.scanPaint deeper node .stroke s
  deeper (art.firstChild node) s

end Step

/-- Scans a node and its siblings, with `levels` levels left. `maxDepth` is the limit that warnings
name. -/
def scanSiblings (maxDepth : Nat) : Nat → Option Nat → ScanState → ScanState
  | _, none, s => s
  | 0, some _, s => s.warn (.tooDeep maxDepth)
  | levels + 1, some first, s =>
    (art.siblings (some first)).foldl
      (fun s node =>
        if art.isHidden node then s
        else art.scanNode (scanSiblings maxDepth levels) node s) s

/-- Scans the art that starts at `first`, which lies at the given depth. -/
def scanFrom (maxDepth depth : Nat) (first : Option Nat) (s : ScanState) : ScanState :=
  art.scanSiblings maxDepth (maxDepth + 1 - depth) first s

/-- Scans one layer. -/
def scanLayer (maxDepth layer : Nat) (s : ScanState) : Layer × ScanState :=
  let first := art.firstArt layer
  let s := art.scanFrom maxDepth 1 first { s with measure := {} }
  (Layer.ofMeasure (art.layerName layer) first s.measure, s)

/-- The visible layers, the lowest first. -/
def visibleLayers : List Nat :=
  (List.range art.layerCount).reverse.filter art.isLayerVisible

/-- Scans layers in the order given. -/
def scanLayers (maxDepth : Nat) : List Nat → ScanState → List Layer × ScanState
  | [], s => ([], s)
  | layer :: layers, s =>
    let (scanned, s) := art.scanLayer maxDepth layer s
    let (rest, s) := scanLayers maxDepth layers s
    (scanned :: rest, s)

/-- Scans all visible layers. -/
def scan (maxDepth : Nat) : List Layer × ScanState :=
  art.scanLayers maxDepth art.visibleLayers {}

/-- The first outline, in the order in which art is visited, among the nodes from `first` on that
are not hidden, with `levels` levels left. -/
def findPath : Nat → Option Nat → Option Path
  | 0, _ => none
  | levels + 1, first =>
    (art.siblings first).findSome? fun node =>
      if art.isHidden node then none
      else ((art.path node).filter (!·.isEmpty)).or (findPath levels (art.firstChild node))

end Artwork

end ArtCanvas
