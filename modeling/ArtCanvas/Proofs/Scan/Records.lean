import ArtCanvas.Proofs.Scan.Once
import Mathlib.Data.List.Forall2

/-!
# What a scan says about layers and patterns

A scan works with tours and levels. Here its results are stated in terms of the way around the art
alone: which nodes stand on it, and at what depth.

* `Artwork.Shows`: the nodes that are visited from a first one on, at any depth.
* `Features.AreOf`: the features of the nodes for which something holds.
* `Artwork.VisitedAt`: the depth at which a node is visited, in a layer or in the art of a pattern.
* `ArtDocument.WellLinked.visitedAt_iff_of_walk_layer`, `visitedAt_iff_of_walk_pattern`: the walk to
  a node tells which of the two.
* `ArtDocument.scan_records`: a scan yields for each visible layer, and for each pattern that is
  used, exactly the flags of the nodes that belong to it.
-/

namespace ArtCanvas

namespace Artwork

variable (art : Artwork)

/-- The node is visited on the way around the art that starts at `first`, at depth `start`. -/
def Shows (maxDepth : Nat) (first : Option Nat) (start node : Nat) : Prop :=
  ∃ depth, art.Visits maxDepth first start node depth

end Artwork

/-- The features are those of the nodes for which `shown` holds. -/
structure Features.AreOf (f : Features) (art : Artwork) (shown : Nat → Prop) : Prop where
  alpha : f.alpha = true ↔ ∃ node, shown node ∧ art.opacity node != 1.0
  gradients : f.gradients = true ↔ ∃ node, shown node ∧ ∃ target, art.paint node target = .gradient
  patterns : f.patterns = true ↔
    ∃ node, shown node ∧ ∃ target handle, art.paint node target = .pattern handle

/-- The layer shows what is on the way around the art of the layer at a position in the document,
and nothing else: its box is the box around all boxes of these nodes, each counted once, and its
features are theirs. -/
structure Layer.Records (l : Layer) (art : Artwork) (maxDepth layer : Nat) : Prop where
  named : l.name = art.layerName layer
  first : l.art = art.firstArt layer
  uncropped : l.crop = false
  bounds : ∃ order : List Nat, order.Nodup ∧
    (∀ node, node ∈ order ↔ art.Shows maxDepth (art.firstArt layer) 1 node) ∧
    l.bounds = order.foldl (fun box node => box.union (art.bounds node)) Box.empty
  features : l.features.AreOf art (art.Shows maxDepth (art.firstArt layer) 1)

/-- A scan in which patterns are first used as in `uses` visits the node at a depth: in the art of a
visible layer, which starts at depth 1, or in the art of a pattern, which starts one level below the
node that first uses it. -/
inductive Artwork.VisitedAt (art : Artwork) (maxDepth : Nat) (uses : List PatternUse) :
    Nat → Nat → Prop
  | layer {layer node depth : Nat} : layer ∈ art.visibleLayers →
      art.Visits maxDepth (art.firstArt layer) 1 node depth → VisitedAt art maxDepth uses node depth
  | content {use : PatternUse} {node outer depth : Nat} : use ∈ uses →
      VisitedAt art maxDepth uses use.node outer →
      art.Visits maxDepth (art.patternContent use.handle) (outer + 1) node depth →
      VisitedAt art maxDepth uses node depth

/-- No pattern is used first twice. -/
theorem Artwork.nodup_firstUses (art : Artwork) (maxDepth : Nat) :
    ((art.scan maxDepth).2.firstUses.map PatternUse.handle).Nodup := by
  obtain ⟨regs, heffect⟩ := art.effect_scan maxDepth
  have huses : (art.scan maxDepth).2.firstUses = regs.map Registration.toPatternUse :=
    heffect.firstUses
  rw [huses, List.map_map]
  exact heffect.distinct

/-- What several nodes ask for are their features. -/
theorem Artwork.needsOf_areOf (art : Artwork) (nodes : List Nat) :
    (art.needsOf nodes).AreOf art (· ∈ nodes) := by
  have hgradients : ∀ paint : PaintKind, paint.needs.gradients = true ↔ paint = .gradient := by
    intro paint
    cases paint <;> simp [PaintKind.needs]
  have hpatterns : ∀ paint : PaintKind,
      paint.needs.patterns = true ↔ ∃ handle, paint = .pattern handle := by
    intro paint
    cases paint <;> simp [PaintKind.needs]
  have halpha : ∀ paint : PaintKind, paint.needs.alpha = false := by
    intro paint
    cases paint <;> rfl
  -- each feature is asked for by the first node or by one of the others
  induction nodes with
  | nil => constructor <;> simp
  | cons node nodes ih =>
    constructor
    · simp only [needsOf_cons, needs, Features.merge, halpha, Bool.or_eq_true, ih.alpha,
        List.mem_cons, or_and_right, exists_or, exists_eq_left, Bool.false_eq_true, or_false]
    · simp only [needsOf_cons, needs, Features.merge, Bool.or_eq_true, hgradients, ih.gradients,
        List.mem_cons, or_and_right, exists_or, exists_eq_left, Bool.false_eq_true, false_or,
        PaintTarget.exists_iff]
    · simp only [needsOf_cons, needs, Features.merge, Bool.or_eq_true, hpatterns, ih.patterns,
        List.mem_cons, or_and_right, exists_or, exists_eq_left, Bool.false_eq_true, false_or,
        PaintTarget.exists_iff]

namespace Features.AreOf

variable {f : Features} {art : Artwork} {shown shown' : Nat → Prop}

theorem congr (h : f.AreOf art shown) (hshown : ∀ node, shown node ↔ shown' node) :
    f.AreOf art shown' := by
  have heq : shown = shown' := funext fun node => propext (hshown node)
  rwa [← heq]

end Features.AreOf

namespace ArtDocument

variable {doc : ArtDocument}

/-- The depth at which the way around comes to a node grows with each link to a child. -/
theorem walk_of_passes [CurveLibrary] {maxDepth start node depth : Nat} (root : Root)
    (hpass : doc.view.Passes maxDepth (doc.view.rootNode root) start node depth) :
    ∃ hops, doc.view.walk root hops = some node ∧ depth = start + hops.count .child := by
  -- one hop for each step, but two for the art of a plugin group, of which one goes to a child
  induction hpass with
  | first hw _ => exact ⟨[], hw, rfl⟩
  | sibling _ hnext ih =>
    obtain ⟨hops, hw, hdepth⟩ := ih
    refine ⟨.sibling :: hops, by rw [Artwork.walk_sibling hw, hnext], ?_⟩
    simpa using hdepth
  | child _ _ hbelow _ ih =>
    obtain ⟨hops, hw, hdepth⟩ := ih
    refine ⟨.child :: hops, by rw [Artwork.walk_child hw, hbelow], ?_⟩
    rw [List.count_cons_self]
    omega
  | result _ _ _ hgroup hbelow _ ih =>
    obtain ⟨hops, hw, hdepth⟩ := ih
    refine ⟨.child :: .result :: hops, ?_, ?_⟩
    · rw [Artwork.walk_result_child hw, hgroup, Option.bind_some, hbelow]
    · rw [List.count_cons_self, List.count_cons_of_ne (by decide)]
      omega

namespace WellLinked

variable [CurveLibrary] (h : doc.WellLinked)

include h

/-- What a tour from a root visits is visited on the way around from there. -/
theorem visits_of_mem_tourAt_root {maxDepth levels : Nat} (root : Root) {stop : Nat × Nat}
    (hlevels : levels ≤ maxDepth) (hmem : stop ∈ doc.view.tourAt levels (doc.view.rootNode root)) :
    stop.2 < levels ∧ doc.view.Visits maxDepth (doc.view.rootNode root) (maxDepth + 1 - levels)
      stop.1 (maxDepth - stop.2) := by
  rw [← Artwork.walk_nil] at hmem ⊢
  exact h.visits_of_mem_tourAt hlevels hmem

/-- A tour from a root visits exactly what is visited on the way around from there. -/
theorem mem_tourAt_root_iff {maxDepth start node depth : Nat} (root : Root) (hstart : 1 ≤ start)
    (hdepth : depth ≤ maxDepth) :
    (node, maxDepth - depth) ∈
        doc.view.tourAt (maxDepth + 1 - start) (doc.view.rootNode root) ↔
      doc.view.Visits maxDepth (doc.view.rootNode root) start node depth := by
  rw [← Artwork.walk_nil]
  exact h.mem_tourAt_iff hstart hdepth

/-- A tour visits what is shown. -/
theorem mem_tour_iff {maxDepth start node : Nat} (root : Root) (hstart : 1 ≤ start) :
    node ∈ doc.view.tour (maxDepth + 1 - start) (doc.view.rootNode root) ↔
      doc.view.Shows maxDepth (doc.view.rootNode root) start node := by
  constructor
  · intro hmem
    obtain ⟨stop, hstop, rfl⟩ := List.mem_map.mp hmem
    obtain ⟨-, hvisits⟩ := h.visits_of_mem_tourAt_root root (show _ ≤ maxDepth by omega) hstop
    by_cases hle : start ≤ maxDepth
    · rw [show maxDepth + 1 - (maxDepth + 1 - start) = start by omega] at hvisits
      exact ⟨_, hvisits⟩
    · -- beyond the limit nothing is toured
      rw [show maxDepth + 1 - start = 0 by omega] at hstop
      exact absurd hstop (by simp [Artwork.tourAt])
  · rintro ⟨depth, hvisits⟩
    have hmem := (h.mem_tourAt_root_iff root hstart hvisits.1.depth_le.2).mpr hvisits
    exact List.mem_map.mpr ⟨_, hmem, rfl⟩

/-- A scanned layer records the art of its layer. -/
theorem layer_records (maxDepth layer : Nat) :
    (Layer.ofMeasure (doc.view.layerName layer) (doc.view.firstArt layer)
      (Measure.along doc.view {} (doc.view.tour maxDepth (doc.view.firstArt layer)))).Records
        doc.view maxDepth layer where
  named := rfl
  first := rfl
  uncropped := rfl
  bounds := by
    refine ⟨doc.view.tour maxDepth (doc.view.firstArt layer),
      h.nodup_tour maxDepth (.layer layer) [], fun node => ?_, rfl⟩
    exact h.mem_tour_iff (.layer layer) le_rfl
  features := by
    have hneeds : (doc.view.needsOf (doc.view.tour maxDepth (doc.view.firstArt layer))).AreOf
        doc.view (doc.view.Shows maxDepth (doc.view.firstArt layer) 1) :=
      (doc.view.needsOf_areOf _).congr fun node => h.mem_tour_iff (.layer layer) le_rfl
    simpa [Layer.ofMeasure, Measure.along] using hneeds

/-- A node that registers a pattern is visited, above the last level. -/
theorem visitedAt_of_registered {maxDepth : Nat} {regs : List Registration} {r : Registration}
    (hr : doc.view.Registered (doc.view.layerTours maxDepth doc.view.visibleLayers) regs r) :
    r.levels < maxDepth ∧ doc.view.VisitedAt maxDepth (regs.map Registration.toPatternUse) r.node
      (maxDepth - r.levels) := by
  induction hr with
  | near _ hstop _ =>
    obtain ⟨layer, hlayer, hstop⟩ := List.mem_flatMap.mp hstop
    obtain ⟨hlt, hvisits⟩ :=
      h.visits_of_mem_tourAt_root (.layer layer) le_rfl hstop
    rw [Nat.add_sub_cancel_left] at hvisits
    exact ⟨hlt, .layer hlayer hvisits⟩
  | @content outer r houter _ hstop _ ih =>
    obtain ⟨hlt, hvisited⟩ := ih
    obtain ⟨hlt', hvisits⟩ :=
      h.visits_of_mem_tourAt_root (.pattern outer.handle) hlt.le hstop
    rw [show maxDepth + 1 - outer.levels = maxDepth - outer.levels + 1 by omega] at hvisits
    have houter' : outer ∈ regs := by
      cases houter with
      | near hmem _ _ => exact hmem
      | content _ hmem _ _ => exact hmem
    exact ⟨by omega, .content (List.mem_map.mpr ⟨outer, houter', rfl⟩) hvisited hvisits⟩

section VisitedAt

variable {maxDepth : Nat} {uses : List PatternUse} {node depth : Nat} {hops : List Hop}

/-- A node in the art of a layer is visited there or not at all. -/
theorem visitedAt_iff_of_walk_layer {layer : Nat}
    (hw : doc.view.walk (.layer layer) hops = some node) :
    doc.view.VisitedAt maxDepth uses node depth ↔ layer ∈ doc.view.visibleLayers ∧
      doc.view.Visits maxDepth (doc.view.firstArt layer) 1 node depth := by
  constructor
  · intro hvisited
    -- the node is behind one root only
    cases hvisited with
    | @layer layer' _ _ hlayer hvisits =>
      obtain ⟨hops', hw', -⟩ := walk_of_passes (.layer layer') hvisits.1
      obtain rfl := Root.layer.inj (h.walk_unique hw' hw).1
      exact ⟨hlayer, hvisits⟩
    | @content use _ _ _ _ _ hvisits =>
      obtain ⟨hops', hw', -⟩ := walk_of_passes (.pattern use.handle) hvisits.1
      exact nomatch (h.walk_unique hw' hw).1
  · exact fun ⟨hlayer, hvisits⟩ => .layer hlayer hvisits

/-- A node in the art of a pattern is visited there, one level below a node that uses the pattern
first, or not at all. -/
theorem visitedAt_iff_of_walk_pattern {handle : Nat}
    (hw : doc.view.walk (.pattern handle) hops = some node) :
    doc.view.VisitedAt maxDepth uses node depth ↔ ∃ use ∈ uses, use.handle = handle ∧
      ∃ outer, doc.view.VisitedAt maxDepth uses use.node outer ∧
        doc.view.Visits maxDepth (doc.view.patternContent handle) (outer + 1) node depth := by
  constructor
  · intro hvisited
    cases hvisited with
    | @layer layer _ _ _ hvisits =>
      obtain ⟨hops', hw', -⟩ := walk_of_passes (.layer layer) hvisits.1
      exact nomatch (h.walk_unique hw' hw).1
    | @content use _ outer _ huse houter hvisits =>
      obtain ⟨hops', hw', -⟩ := walk_of_passes (.pattern use.handle) hvisits.1
      obtain rfl := Root.pattern.inj (h.walk_unique hw' hw).1
      exact ⟨use, huse, rfl, outer, houter, hvisits⟩
  · rintro ⟨use, huse, rfl, outer, houter, hvisits⟩
    exact .content huse houter hvisits

/-- From one start a node is visited at one depth. -/
theorem visits_unique (root : Root) {start depth' : Nat}
    (hvisits : doc.view.Visits maxDepth (doc.view.rootNode root) start node depth)
    (hvisits' : doc.view.Visits maxDepth (doc.view.rootNode root) start node depth') :
    depth = depth' := by
  obtain ⟨hops, hw, hdepth⟩ := walk_of_passes root hvisits.1
  obtain ⟨hops', hw', hdepth'⟩ := walk_of_passes root hvisits'.1
  obtain ⟨-, rfl⟩ := h.walk_unique hw hw'
  rw [hdepth, hdepth']

/-- A node is visited at one depth only. -/
theorem visitedAt_unique (hdistinct : (uses.map PatternUse.handle).Nodup) {depth' : Nat}
    (hv : doc.view.VisitedAt maxDepth uses node depth)
    (hv' : doc.view.VisitedAt maxDepth uses node depth') : depth = depth' := by
  induction hv generalizing depth' with
  | @layer layer node depth _ hvisits =>
    obtain ⟨hops, hw, -⟩ := walk_of_passes (.layer layer) hvisits.1
    obtain ⟨-, hvisits'⟩ := (h.visitedAt_iff_of_walk_layer hw).mp hv'
    exact h.visits_unique (.layer layer) hvisits hvisits'
  | @content use node outer depth hmem _ hvisits ih =>
    obtain ⟨hops, hw, -⟩ := walk_of_passes (.pattern use.handle) hvisits.1
    obtain ⟨use', hmem', hhandle, outer', houter', hvisits'⟩ :=
      (h.visitedAt_iff_of_walk_pattern hw).mp hv'
    -- the same pattern has the same first use, which is visited at one depth
    obtain rfl := List.inj_on_of_nodup_map hdistinct hmem' hmem hhandle
    obtain rfl := ih houter'
    exact h.visits_unique (.pattern use'.handle) hvisits hvisits'

end VisitedAt

/-- The features of a registered pattern are those of its art, one level below the node that
registers it. -/
theorem features_of_registered {maxDepth : Nat} {r : Registration} (hlt : r.levels < maxDepth) :
    (doc.view.needsOf ((doc.view.contentTour r).map Prod.fst)).AreOf doc.view
      (doc.view.Shows maxDepth (doc.view.patternContent r.handle) (maxDepth - r.levels + 1)) := by
  refine (doc.view.needsOf_areOf _).congr fun node => ?_
  have hiff : node ∈ doc.view.tour (maxDepth + 1 - (maxDepth - r.levels + 1))
      (doc.view.patternContent r.handle) ↔
        doc.view.Shows maxDepth (doc.view.patternContent r.handle) (maxDepth - r.levels + 1) node :=
    h.mem_tour_iff (.pattern r.handle) (by omega)
  rwa [show maxDepth + 1 - (maxDepth - r.levels + 1) = r.levels by omega] at hiff

/-- A pattern in use was registered by a node that uses it, which is visited at one depth, and its
features are those of its art from one level below on. -/
theorem pattern_records (maxDepth : Nat) {p : Pattern}
    (hp : p ∈ (doc.view.scan maxDepth).2.patterns.patterns) :
    ∃ use ∈ (doc.view.scan maxDepth).2.firstUses,
      use.handle = p.handle ∧ doc.view.Uses use.node p.handle ∧
        ∃ depth, (∀ d, doc.view.VisitedAt maxDepth (doc.view.scan maxDepth).2.firstUses
            use.node d ↔ d = depth) ∧
          p.features.AreOf doc.view
            (doc.view.Shows maxDepth (doc.view.patternContent p.handle) (depth + 1)) := by
  obtain ⟨regs, heffect⟩ := doc.view.effect_scan maxDepth
  have huses : (doc.view.scan maxDepth).2.firstUses = regs.map Registration.toPatternUse :=
    heffect.firstUses
  have hdistinct := doc.view.nodup_firstUses maxDepth
  rw [huses] at hdistinct
  -- the features were recorded when the pattern was first used, and never changed
  obtain ⟨r, hr, hhandle, -, hfeatures⟩ := heffect.exists_registration hp
  have hregistered := heffect.registered r hr
  obtain ⟨hlt, hvisited⟩ := h.visitedAt_of_registered hregistered
  rw [huses, hfeatures, ← hhandle]
  refine ⟨r.toPatternUse, List.mem_map.mpr ⟨r, hr, rfl⟩, rfl, ?_, maxDepth - r.levels,
    fun d => ⟨fun hd => h.visitedAt_unique hdistinct hd hvisited, ?_⟩,
    h.features_of_registered hlt⟩
  · cases hregistered with
    | near _ _ huse => exact huse
    | content _ _ _ huse => exact huse
  · rintro rfl
    exact hvisited

end WellLinked

end ArtDocument

end ArtCanvas
