import ArtCanvas.Proofs.Scan.Tour

/-!
# What a scan measures

The measure of a piece of art is a box and three flags. A scan updates it in several places and at
several times. This module shows that all of it together is a sum over the tour: the measure of the
art of a pattern never gets into the measure of the art around it.

* `Artwork.needs`: what one node asks for, `Artwork.needsOf`: what several nodes ask for.
* `Measure.along`: a measure after some nodes were visited.
* `Artwork.measure_scanSiblings`: a scan measures its tour, and nothing else.
-/

namespace ArtCanvas

namespace Features

/-- What two needs come to does not depend on their order. -/
theorem merge_comm (f g : Features) : f.merge g = g.merge f := by
  simp [merge, Bool.or_comm]

/-- Nor does what more of them come to. -/
theorem merge_right_comm (f g h : Features) : (f.merge g).merge h = (f.merge h).merge g := by
  rw [merge_assoc, merge_comm g, ← merge_assoc]

end Features

/-- What a paint asks for. -/
def PaintKind.needs : PaintKind → Features
  | .gradient => { gradients := true }
  | .pattern _ => { patterns := true }
  | .none | .solid => {}

namespace Artwork

variable (art : Artwork)

/-- What a node asks for, apart from its art below. -/
def needs (node : Nat) : Features :=
  ({ alpha := art.opacity node != 1.0 } : Features).merge
    ((art.paint node .fill).needs.merge (art.paint node .stroke).needs)

/-- What several nodes ask for. -/
def needsOf (nodes : List Nat) : Features := (nodes.map art.needs).foldr Features.merge {}

/-- The box around a box and the boxes of nodes, which are added in the order given. -/
def boundsOf (box : Box Float) (nodes : List Nat) : Box Float :=
  nodes.foldl (fun b node => b.union (art.bounds node)) box

/-- No nodes need nothing. -/
@[simp]
theorem needsOf_nil : art.needsOf [] = {} := rfl

@[simp]
theorem needsOf_cons (node : Nat) (nodes : List Nat) :
    art.needsOf (node :: nodes) = (art.needs node).merge (art.needsOf nodes) := rfl

/-- The needs of two lists of nodes are merged. -/
theorem needsOf_append (nodes nodes' : List Nat) :
    art.needsOf (nodes ++ nodes') = (art.needsOf nodes).merge (art.needsOf nodes') := by
  induction nodes with
  | nil => simp
  | cons node nodes ih =>
    rw [List.cons_append, needsOf_cons, ih, needsOf_cons, Features.merge_assoc]

end Artwork

namespace Measure

/-- A measure of art that asks for something more. -/
def need (m : Measure) (features : Features) : Measure :=
  { m with features := m.features.merge features }

/-- A measure after some nodes were visited. -/
def along (art : Artwork) (m : Measure) (nodes : List Nat) : Measure :=
  { bounds := art.boundsOf m.bounds nodes, features := m.features.merge (art.needsOf nodes) }

variable {art : Artwork} {m : Measure}

@[simp]
theorem along_nil : m.along art [] = m := by
  simp [along, Artwork.boundsOf]

/-- A measure goes along two lists one after the other. -/
theorem along_append (nodes nodes' : List Nat) :
    m.along art (nodes ++ nodes') = (m.along art nodes).along art nodes' := by
  simp [along, Artwork.boundsOf, Artwork.needsOf_append, Features.merge_assoc]

/-- A measure takes up the box and the needs of each node. -/
theorem along_cons (node : Nat) (nodes : List Nat) :
    m.along art (node :: nodes) =
      (along art { m with bounds := m.bounds.union (art.bounds node) } nodes).need
        (art.needs node) := by
  simp only [along, need, Artwork.boundsOf, Artwork.needsOf_cons, List.foldl_cons]
  rw [Features.merge_assoc, Features.merge_comm (art.needsOf nodes)]

/-- Needs can be taken up before or after nodes. -/
theorem need_along (features : Features) (nodes : List Nat) :
    (m.need features).along art nodes = (m.along art nodes).need features := by
  simp only [along, need]
  rw [Features.merge_right_comm]

/-- Needs that are taken up one after the other are merged. -/
theorem need_need (features features' : Features) :
    (m.need features).need features' = m.need (features.merge features') := by
  simp only [need, Features.merge_assoc]

end Measure

namespace Artwork

variable {art : Artwork}

section Step

variable {deeper : Option Nat → ScanState → ScanState}

/-- The art of a pattern does not count. -/
theorem measure_usePattern (node handle : Nat) (role : PatternRole) (s : ScanState) :
    (art.usePattern deeper node handle role s).measure = s.measure := by
  unfold usePattern
  split <;> rfl

/-- Scanning a paint takes up what the paint needs. -/
theorem measure_scanPaint (node : Nat) (target : PaintTarget) (s : ScanState) :
    (art.scanPaint deeper node target s).measure =
      s.measure.need (art.paint node target).needs := by
  unfold scanPaint
  cases art.paint node target with
  | pattern handle =>
    exact congrArg (Measure.need · _) (measure_usePattern node handle .paint s)
  | gradient => rfl
  | none => simp [PaintKind.needs, Measure.need]
  | solid => simp [PaintKind.needs, Measure.need]

/-- Scanning the opacity of a node takes up what it needs. -/
theorem measure_scanOpacity (node : Nat) (s : ScanState) :
    (art.scanOpacity node s).measure = s.measure.need { alpha := art.opacity node != 1.0 } := by
  unfold scanOpacity
  cases art.opacity node != 1.0 with
  | true => rfl
  | false => exact congrArg (Measure.mk _) (Features.merge_empty _).symm

variable {levels : Nat}
  (hdeeper : ∀ first s, (deeper first s).measure = s.measure.along art (art.tour levels first))

include hdeeper

/-- Scanning a node by its kind takes up all that the node shows. -/
theorem measure_scanKind (node : Nat) (s : ScanState) :
    (art.scanKind deeper node s).measure =
      s.measure.along art (art.tour levels (art.resultArt node)) := by
  unfold scanKind resultArt
  cases art.kind node with
  | plain => simp [tour]
  | symbol =>
    cases art.symbolPattern node with
    | none => simp [tour]
    | some handle => simp [tour, measure_usePattern]
  | pluginGroup =>
    cases art.pluginResult node with
    | none => simp [tour]
    | some group => exact hdeeper _ _

/-- A node counts with its box, its opacity and its paints, and with all that is toured below it. -/
theorem measure_scanNode (node : Nat) (s : ScanState) :
    (art.scanNode deeper node s).measure =
      s.measure.along art (node ::
        (art.tour levels (art.resultArt node) ++ art.tour levels (art.firstChild node))) := by
  unfold scanNode
  -- from the last step back to the first; then the flags move past the boxes
  rw [hdeeper, measure_scanPaint, measure_scanPaint, measure_scanOpacity,
    measure_scanKind hdeeper, Measure.along_cons, Measure.along_append, Measure.need_need,
    Measure.need_need, Measure.need_along]
  rfl

end Step

/-- A scan of a list of siblings measures their tour. -/
theorem measure_scanSiblings (maxDepth levels : Nat) (first : Option Nat) (s : ScanState) :
    (art.scanSiblings maxDepth levels first s).measure =
      s.measure.along art (art.tour levels first) := by
  induction levels generalizing first s with
  | zero => cases first <;> simp [scanSiblings, tour, tourAt, ScanState.warn]
  | succ levels ih =>
    cases first with
    | none => simp [scanSiblings, tour]
    | some node =>
      rw [tour, tourAt_succ, scanSiblings]
      -- one sibling after another, each with what is toured below it
      generalize art.siblings (some node) = nodes
      induction nodes generalizing s with
      | nil => simp
      | cons sibling nodes ihn =>
        rw [List.foldl_cons, ihn, List.flatMap_cons, List.map_append, Measure.along_append]
        congr 1
        rw [tourNode]
        split
        · simp
        · rw [measure_scanNode ih, List.map_cons, List.map_append]
          rfl

/-- A layer shows the measure of its tour. -/
theorem scanLayer_fst (maxDepth layer : Nat) (s : ScanState) :
    (art.scanLayer maxDepth layer s).1 =
      .ofMeasure (art.layerName layer) (art.firstArt layer)
        (Measure.along art {} (art.tour maxDepth (art.firstArt layer))) := by
  rw [scanLayer, scanFrom]
  dsimp only
  rw [measure_scanSiblings, Nat.add_sub_cancel]

/-- The scanned layers are the visible ones, each with the measure of its tour. -/
theorem scan_fst (maxDepth : Nat) :
    (art.scan maxDepth).1 = art.visibleLayers.map fun layer =>
      .ofMeasure (art.layerName layer) (art.firstArt layer)
        (Measure.along art {} (art.tour maxDepth (art.firstArt layer))) := by
  rw [scan]
  -- a layer is measured anew, so the state that the layers before leave does not matter
  generalize ({} : ScanState) = s
  induction art.visibleLayers generalizing s with
  | nil => rfl
  | cons layer layers ih =>
    rw [scanLayers, List.map_cons, ← scanLayer_fst maxDepth layer s]
    exact congrArg _ (ih _)

end Artwork

end ArtCanvas
