import ArtCanvas.Proofs.Compile.Drawn
import ArtCanvas.Proofs.Geometry.Unions
import ArtCanvas.Proofs.Scan.Measure

/-!
# When there is a page

A compile fails if the page has no point. The page is the box of a layer that cuts it, or else the
union of the boxes of all layers. A layer that cuts the page has points itself, so cutting decides
how large the page is, and never whether there is one.

* `Layer.occupied_pageBounds_iff`: layers make a page if their boxes reach.
* `Artwork.compile_cases`: a compile fails for want of visible art, and in no other way.
* `Artwork.noVisibleContent_iff`: it fails if the boxes of the scanned layers do not reach.
* `Artwork.noVisibleContent_iff_of_occupied`: where the boxes of all nodes are in order, it fails if
  no layer shows a node.
-/

namespace ArtCanvas

/-- Layers make a page with points if their boxes reach, whether or not the page is cut. -/
theorem Layer.occupied_pageBounds_iff {layers : List Layer}
    (h : ∀ b ∈ layers.map bounds, b.IsNumeric) :
    (pageBounds layers).Occupied ↔ Box.Reach (layers.map bounds) := by
  unfold pageBounds
  split
  next l hfind =>
    -- the layer that cuts the page is one of the layers, and its box has points
    obtain ⟨-, hoccupied⟩ : l.crop = true ∧ l.bounds.Occupied := by
      simpa [Box.isEmpty] using List.find?_some hfind
    have hmem : l.bounds ∈ layers.map bounds :=
      List.mem_map_of_mem (List.mem_of_find?_eq_some hfind)
    exact iff_of_true hoccupied (.of_occupied hmem hoccupied)
  · rw [← Box.occupied_around_iff h, Box.around, List.foldl_map]

/-- Going through the layers changes none of their boxes. -/
theorem Assembly.bounds_run [CurveLibrary] (options : CompileOptions) (art : Artwork)
    (scanned : List Layer) :
    (run options art scanned).layers.map Layer.bounds = scanned.map Layer.bounds := by
  have huncut := congrArg (List.map Layer.bounds) (draws_run options art scanned).layers
  rwa [List.map_map, List.map_map] at huncut

namespace Artwork

variable {art : Artwork} {options : CompileOptions}

/-- The box of a scanned layer is the box around the nodes that are toured. -/
theorem map_bounds_scan (maxDepth : Nat) :
    (art.scan maxDepth).1.map Layer.bounds = art.visibleLayers.map fun layer =>
      Box.around ((art.tour maxDepth (art.firstArt layer)).map art.bounds) := by
  rw [scan_fst, List.map_map]
  refine List.map_congr_left fun layer _ => ?_
  rw [Box.around, List.foldl_map]
  rfl

/-- The edges of the box of a scanned layer are numbers, whatever the host says about its nodes. -/
theorem isNumeric_of_mem_scan (maxDepth : Nat) :
    ∀ b ∈ (art.scan maxDepth).1.map Layer.bounds, b.IsNumeric := by
  rw [map_bounds_scan]
  exact List.forall_mem_map.mpr fun layer _ => Box.isNumeric_around _

variable [CurveLibrary]

/-- A compile succeeds if the boxes of the scanned layers reach. If they do not, it fails for want
of visible art. -/
theorem compile_cases (art : Artwork) (options : CompileOptions) :
    (Box.Reach ((art.scan options.maxDepth).1.map Layer.bounds) ∧
        ∃ c, art.compile options = .ok c) ∨
      ¬ Box.Reach ((art.scan options.maxDepth).1.map Layer.bounds) ∧
        art.compile options = .error .noVisibleContent := by
  have hboxes := Assembly.bounds_run options art (art.scan options.maxDepth).1
  have hpage := Layer.occupied_pageBounds_iff
    (hboxes ▸ art.isNumeric_of_mem_scan options.maxDepth)
  rw [hboxes] at hpage
  unfold compile
  dsimp only
  split
  next hempty => exact .inr ⟨fun hreach => Box.isEmpty_iff.mp hempty (hpage.mpr hreach), rfl⟩
  next hempty =>
    rw [Box.isEmpty_iff, not_not] at hempty
    exact .inl ⟨hpage.mp hempty, _, rfl⟩

/-- A compile fails exactly if the boxes of the scanned layers do not reach, that is, if along one
of the axes none of them begins before any of them ends. Then all of them are empty. Empty boxes do
not reach either as long as they all are `Box.empty`, the box of no art: the edges of other empty
boxes count for the page like those of boxes with points. -/
theorem noVisibleContent_iff (art : Artwork) (options : CompileOptions) :
    ((∃ c, art.compile options = .ok c) ↔
        Box.Reach ((art.scan options.maxDepth).1.map Layer.bounds)) ∧
      (art.compile options = .error .noVisibleContent ↔
        ¬ Box.Reach ((art.scan options.maxDepth).1.map Layer.bounds)) ∧
      (art.compile options = .error .noVisibleContent →
        ∀ l ∈ (art.scan options.maxDepth).1, l.bounds.isEmpty) ∧
      ((∀ l ∈ (art.scan options.maxDepth).1, l.bounds.isEmpty → l.bounds = Box.empty) →
        (art.compile options = .error .noVisibleContent ↔
          ∀ l ∈ (art.scan options.maxDepth).1, l.bounds.isEmpty)) := by
  -- compiling fails exactly where no box of the union is reached
  have hfails : art.compile options = .error .noVisibleContent ↔
      ¬ Box.Reach ((art.scan options.maxDepth).1.map Layer.bounds) := by
    rcases art.compile_cases options with ⟨hreach, c, hc⟩ | ⟨hreach, hc⟩
    · exact iff_of_false (by rw [hc]; nofun) (not_not_intro hreach)
    · exact iff_of_true hc hreach
  have hempty (h : art.compile options = .error .noVisibleContent) :
      ∀ l ∈ (art.scan options.maxDepth).1, l.bounds.isEmpty := by
    intro l hl
    rw [Box.isEmpty_iff]
    exact fun hoccupied => hfails.mp h (.of_occupied (List.mem_map_of_mem hl) hoccupied)
  refine ⟨?_, hfails, hempty, fun hsentinel => ⟨hempty, fun h => hfails.mpr ?_⟩⟩
  · rcases art.compile_cases options with ⟨hreach, hc⟩ | ⟨hreach, hc⟩
    · exact iff_of_true hc hreach
    · exact iff_of_false (fun ⟨c, hc'⟩ => nomatch hc.symm.trans hc') hreach
  · exact Box.not_reach_of_eq_empty (List.forall_mem_map.mpr fun l hl => hsentinel l hl (h l hl))

/-- Where all nodes have boxes with points, a compile fails exactly if no layer shows a node. -/
theorem noVisibleContent_iff_of_occupied
    (h : ∀ layer ∈ art.visibleLayers,
      ∀ node ∈ art.tour options.maxDepth (art.firstArt layer), (art.bounds node).Occupied) :
    art.compile options = .error .noVisibleContent ↔
      ∀ layer ∈ art.visibleLayers, art.tour options.maxDepth (art.firstArt layer) = [] := by
  have hboxes := art.map_bounds_scan options.maxDepth
  constructor
  · intro hfails layer hlayer
    refine List.eq_nil_iff_forall_not_mem.mpr fun node hnode => ?_
    -- one node with points is enough for the box of its layer, and that for the page
    have hlayerBox : (Box.around ((art.tour options.maxDepth (art.firstArt layer)).map
        art.bounds)).Occupied := by
      rw [Box.occupied_around_iff
        (List.forall_mem_map.mpr fun node hnode => (h layer hlayer node hnode).isNumeric)]
      exact .of_occupied (List.mem_map_of_mem hnode) (h layer hlayer node hnode)
    rcases art.compile_cases options with ⟨-, c, hc⟩ | ⟨hreach, -⟩
    · exact nomatch hc.symm.trans hfails
    · rw [hboxes] at hreach
      exact hreach (.of_occupied (List.mem_map.mpr ⟨layer, hlayer, rfl⟩) hlayerBox)
  · intro hnone
    rcases art.compile_cases options with ⟨hreach, -⟩ | ⟨-, hc⟩
    · refine absurd hreach (Box.not_reach_of_eq_empty ?_)
      rw [hboxes]
      refine List.forall_mem_map.mpr fun layer hlayer => ?_
      rw [hnone layer hlayer]
      rfl
    · exact hc

end Artwork

namespace ArtDocument

/-- Two layers whose only nodes have their left edge on the right. One lies between 2 and 3, the
other one between 0 and 1. -/
def invertedLayers : ArtDocument where
  layers := #[{ name := "a", art := some 0 }, { name := "b", art := some 1 }]
  nodes := #[
    { bounds := { left := 3.0, top := 1.0, right := 2.0, bottom := 0.0 } },
    { bounds := { left := 1.0, top := 1.0, right := 0.0, bottom := 0.0 } }]

/-- Both layers of `invertedLayers` are empty, and together they make a page that begins where the
second one should and ends where the first one should. -/
theorem compiles_invertedLayers :
    invertedLayers.Valid ∧
      (∀ l ∈ (invertedLayers.view.scan 256).1, l.bounds.isEmpty) ∧
      ∃ c, invertedLayers.view.compile {} = .ok c ∧ c.bounds.left = 1.0 ∧ c.bounds.right = 2.0 := by
  have hcompile : (invertedLayers.view.compile {}).toOption.any (fun c =>
      decide (c.bounds.left = 1.0 ∧ c.bounds.right = 2.0)) = true := by decide +kernel
  obtain ⟨c, hc, hedges⟩ := exists_ok_of_any hcompile
  exact ⟨by decide +kernel, by decide +kernel, c, hc, of_decide_eq_true hedges⟩

end ArtDocument

end ArtCanvas
