import ArtCanvas.Proofs.Scan.Records

/-!
# What a scan visits

The nodes that a scan visits were listed as tours, of layers and of the art of the patterns that it
registers. Here they are the nodes that stand on the way around the art, whatever tour they belong
to.

* `Passes.relocate`: the way around is the same for every limit and every depth that it starts at.
* `WellLinked.mem_stops_iff`: the tours of a scan come to a node at the depth at which it is
  visited.
* `WellLinked.mem_visited_iff`: a scan visits the nodes that are visited at some depth.
-/

namespace ArtCanvas

namespace Artwork

variable {art : Artwork} {maxDepth : Nat}

/-- The way around art is the same from every depth on and within every limit, as far as the limit
goes. -/
theorem Passes.relocate {start node depth : Nat} {first : Option Nat}
    (h : art.Passes maxDepth first start node depth) (start' maxDepth' : Nat)
    (hle : start' + (depth - start) ≤ maxDepth') :
    art.Passes maxDepth' first start' node (start' + (depth - start)) := by
  induction h with
  | first heq _ =>
    rw [Nat.sub_self, Nat.add_zero] at hle ⊢
    exact .first heq hle
  | sibling _ hnext ih => exact (ih hle).sibling hnext
  | child hpass hvisible hbelow _ ih =>
    have hstart := hpass.depth_le.1
    rw [Nat.sub_add_comm hstart, ← Nat.add_assoc] at hle ⊢
    exact (ih (by omega)).child hvisible hbelow hle
  | result hpass hvisible hkind hgroup hbelow _ ih =>
    have hstart := hpass.depth_le.1
    rw [Nat.sub_add_comm hstart, ← Nat.add_assoc] at hle ⊢
    exact (ih (by omega)).result hvisible hkind hgroup hbelow hle

/-- Nothing is visited above the page or beyond the limit. -/
theorem VisitedAt.depth_le {uses : List PatternUse} {node depth : Nat}
    (h : art.VisitedAt maxDepth uses node depth) : 1 ≤ depth ∧ depth ≤ maxDepth := by
  cases h with
  | layer _ hvisits => exact hvisits.1.depth_le
  | content _ _ hvisits =>
    obtain ⟨hstart, hle⟩ := hvisits.1.depth_le
    exact ⟨by omega, hle⟩

/-- All stops of a scan that makes the registrations `regs`: those in the layers, and those in the
art of the registered patterns. -/
def stops (art : Artwork) (maxDepth : Nat) (regs : List Registration) : List (Nat × Nat) :=
  art.layerTours maxDepth art.visibleLayers ++ regs.flatMap art.contentTour

end Artwork

namespace ArtDocument.WellLinked

variable [CurveLibrary] {doc : ArtDocument} (h : doc.WellLinked) {maxDepth : Nat} {out : List Nat}
  {regs : List Registration} {s : ScanState}

include h

/-- The art of a registered pattern is toured where it is visited. -/
theorem visitedAt_of_mem_contentTour {r : Registration} {stop : Nat × Nat}
    (hr : doc.view.Registered (doc.view.layerTours maxDepth doc.view.visibleLayers) regs r)
    (hmem : r ∈ regs) (hstop : stop ∈ doc.view.contentTour r) :
    stop.2 < maxDepth ∧ doc.view.VisitedAt maxDepth (regs.map Registration.toPatternUse) stop.1
      (maxDepth - stop.2) := by
  obtain ⟨hlt, hvisited⟩ := h.visitedAt_of_registered hr
  obtain ⟨hlt', hvisits⟩ := h.visits_of_mem_tourAt_root (.pattern r.handle) hlt.le hstop
  rw [show maxDepth + 1 - r.levels = maxDepth - r.levels + 1 by omega] at hvisits
  exact ⟨by omega, .content (List.mem_map.mpr ⟨r, hmem, rfl⟩) hvisited hvisits⟩

/-- The stops of a scan are the nodes that are visited, each at its depth. -/
theorem mem_stops_iff
    (heffect : Effect doc.view maxDepth maxDepth
      (doc.view.layerTours maxDepth doc.view.visibleLayers)
      (doc.view.layerTours maxDepth doc.view.visibleLayers) out regs {} s)
    {node levels : Nat} :
    (node, levels) ∈ doc.view.stops maxDepth regs ↔
      levels < maxDepth ∧ doc.view.VisitedAt maxDepth (regs.map Registration.toPatternUse) node
        (maxDepth - levels) := by
  constructor
  · intro hstop
    rcases List.mem_append.mp hstop with hlayers | hcontents
    · obtain ⟨layer, hlayer, hstop⟩ := List.mem_flatMap.mp hlayers
      obtain ⟨hlt, hvisits⟩ := h.visits_of_mem_tourAt_root (.layer layer) le_rfl hstop
      rw [Nat.add_sub_cancel_left] at hvisits
      exact ⟨hlt, .layer hlayer hvisits⟩
    · obtain ⟨r, hr, hstop⟩ := List.mem_flatMap.mp hcontents
      exact h.visitedAt_of_mem_contentTour (heffect.registered r hr) hr hstop
  · rintro ⟨hlt, hvisited⟩
    generalize hdepth : maxDepth - levels = depth at hvisited
    obtain rfl : levels = maxDepth - depth := by omega
    cases hvisited with
    | @layer layer _ _ hlayer hvisits =>
      have hstop := (h.mem_tourAt_root_iff (.layer layer) le_rfl (by omega)).mpr hvisits
      exact List.mem_append_left _ (List.mem_flatMap.mpr ⟨layer, hlayer, hstop⟩)
    | @content use _ outer _ huse houter hvisits =>
      obtain ⟨r, hr, rfl⟩ := List.mem_map.mp huse
      -- the pattern was registered where its first use is visited, at one depth only
      obtain ⟨hrlt, hrvisited⟩ := h.visitedAt_of_registered (heffect.registered r hr)
      have hdistinct : ((regs.map Registration.toPatternUse).map PatternUse.handle).Nodup := by
        rw [List.map_map]
        exact heffect.distinct
      obtain rfl := h.visitedAt_unique hdistinct houter hrvisited
      have hstop :=
        (h.mem_tourAt_root_iff (.pattern r.handle) (by omega) (by omega)).mpr hvisits
      rw [show maxDepth + 1 - (maxDepth - r.levels + 1) = r.levels by omega] at hstop
      exact List.mem_append_right _ (List.mem_flatMap.mpr ⟨r, hr, hstop⟩)

/-- A scan visits the nodes that are visited at some depth. -/
theorem mem_visited_iff {node : Nat} :
    node ∈ (doc.view.scan maxDepth).2.visited ↔
      ∃ depth, doc.view.VisitedAt maxDepth (doc.view.scan maxDepth).2.firstUses node depth := by
  obtain ⟨regs, heffect⟩ := doc.view.effect_scan maxDepth
  have huses : (doc.view.scan maxDepth).2.firstUses = regs.map Registration.toPatternUse :=
    heffect.firstUses
  have hvisited := heffect.visited
  rw [List.append_nil] at hvisited
  rw [hvisited.mem_iff, huses]
  constructor
  · intro hmem
    obtain ⟨⟨node, levels⟩, hstop, rfl⟩ := List.mem_map.mp hmem
    exact ⟨_, ((h.mem_stops_iff heffect).mp hstop).2⟩
  · rintro ⟨depth, hdepth⟩
    obtain ⟨hstart, hle⟩ := hdepth.depth_le
    rw [show depth = maxDepth - (maxDepth - depth) by omega] at hdepth
    exact List.mem_map.mpr ⟨_, (h.mem_stops_iff heffect).mpr ⟨by omega, hdepth⟩, rfl⟩

end ArtDocument.WellLinked

end ArtCanvas
