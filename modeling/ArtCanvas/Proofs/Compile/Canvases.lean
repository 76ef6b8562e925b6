import ArtCanvas.Proofs.Artwork.Walks
import ArtCanvas.Proofs.Compile.Drawn
import ArtCanvas.Proofs.Pattern.Names
import ArtCanvas.Proofs.Scan.Mentions

/-!
# The canvases of a compiled document

The page comes first, and then the hidden canvases, in the order in which their patterns are first
used. Their numbers go by the first use as a paint, so they are all there, but not always in order.

* `Artwork.map_canvases_of_compile`: the numbers of the canvases, from the table of patterns.
* `Artwork.canvas_order`: the numbers in the list, and when they are the places in it.
-/

namespace ArtCanvas

namespace PatternTable

/-- Naming the symbol functions changes neither places nor canvases. -/
theorem Allots.nameSymbols {t : PatternTable} {mentions : List Mention} (h : t.Allots mentions)
    (taken : List String) : (t.nameSymbols taken).Allots mentions :=
  h.of_map_eq (map_nameSymbols (fun _ _ => rfl) t taken) rfl

/-- The hidden canvases have the numbers of the table. -/
theorem map_hiddenCanvas (t : PatternTable) :
    (t.tiles.filterMap Pattern.hiddenCanvas?).map (fun k => (k.id, k.hidden)) =
      t.canvasIds.map fun id => (id, true) := by
  rw [canvasIds, List.map_filterMap, List.map_filterMap]
  refine List.filterMap_congr fun p _ => ?_
  rw [Pattern.hiddenCanvas?, Option.map_map]
  rfl

end PatternTable

namespace Artwork

variable [CurveLibrary] {art : Artwork} {options : CompileOptions} {c : Compiled}

theorem allots_of_compile (hc : art.compile options = .ok c) :
    c.patterns.Allots (art.mentions options.maxDepth) := by
  rw [(drawn_of_compile hc).2.2.1]
  exact (art.allots_scan options.maxDepth).nameSymbols _

/-- The numbers of the canvases of a compiled document. -/
theorem map_canvases_of_compile (hc : art.compile options = .ok c) :
    c.canvases.map (fun k => (k.id, k.hidden)) =
      (0, false) :: c.patterns.canvasIds.map fun id => (id, true) := by
  rw [(comesFrom_of_compile hc).canvases, List.map_cons, PatternTable.map_hiddenCanvas]
  rfl

theorem map_id_canvases_of_compile (hc : art.compile options = .ok c) :
    c.canvases.map Canvas.id = 0 :: c.patterns.canvasIds := by
  have hfst := congrArg (List.map Prod.fst) (map_canvases_of_compile hc)
  rw [List.map_map, List.map_cons, List.map_map] at hfst
  exact hfst.trans (congrArg (List.cons 0) (List.map_id _))

/-- How canvases are numbered and listed, for all calls for patterns and for every compiled
document. The page is number 0 and comes first. The hidden canvases are listed in the order in which
their patterns are first mentioned, and have the numbers from 1 on, in the order in which their
patterns are first mentioned as paints. So the numbers are the places in the list exactly if both
orders agree, which they do not where a symbol is used as a paint only after another pattern. -/
theorem canvas_order (hc : art.compile options = .ok c) :
    (∀ calls : List (Mention × PatternSource),
      (PatternTable.register {} calls).canvasIds =
          (Mention.paintedAsUsed (calls.map Prod.fst)).map (fun handle =>
            (Mention.painted (calls.map Prod.fst)).idxOf handle + 1) ∧
        ((PatternTable.register {} calls).canvasIds.Pairwise (· < ·) ↔
          Mention.paintedAsUsed (calls.map Prod.fst) = Mention.painted (calls.map Prod.fst))) ∧
      c.canvases.map (fun k => (k.id, k.hidden)) =
          (0, false) :: (Mention.paintedAsUsed (art.mentions options.maxDepth)).map (fun handle =>
            ((Mention.painted (art.mentions options.maxDepth)).idxOf handle + 1, true)) ∧
      (c.canvases.map Canvas.id).Perm (List.range c.canvases.length) ∧
      ((∀ k (hk : k < c.canvases.length), c.canvases[k].id = k) ↔
        Mention.paintedAsUsed (art.mentions options.maxDepth) =
          Mention.painted (art.mentions options.maxDepth)) := by
  have hallots := allots_of_compile hc
  -- the numbers of the canvases are those that the table has allotted
  have hids := map_id_canvases_of_compile hc
  have hlength : c.canvases.length = c.patterns.canvasIds.length + 1 := by
    simpa using congrArg List.length hids
  have hrange : List.range c.canvases.length =
      0 :: List.range' 1 c.patterns.canvasIds.length := by
    rw [hlength, List.range_eq_range', List.range'_succ]
  refine ⟨fun calls => ?_, ?_, ?_, ?_⟩
  · have hcalls := PatternTable.allots_register calls
    exact ⟨hcalls.canvasIds_eq, hcalls.canvasIds_pairwise_iff⟩
  · rw [map_canvases_of_compile hc, hallots.canvasIds_eq, List.map_map]
    rfl
  · rw [hids, hrange]
    exact hallots.canvasIds_perm.cons 0
  · -- both lists of numbers begin with that of the page
    rw [← hallots.canvasIds_eq_range_iff, ← List.cons_inj_right 0, ← hids, ← hrange,
      List.ext_getElem_iff]
    simp

end Artwork

namespace ArtDocument

/-- A symbol that becomes a paint only after another pattern does. -/
def latePaint : ArtDocument where
  layers := #[{ name := "a", art := some 0 }]
  nodes := #[
    { bounds := unitBox, kind := .symbol, symbol := some 0, nextSibling := some 1 },
    { bounds := unitBox, fill := .pattern 1, nextSibling := some 2 },
    { bounds := unitBox, fill := .pattern 0 },
    { bounds := unitBox },
    { bounds := unitBox }]
  patterns := #[{ name := "leaf", content := some 3 }, { name := "dots", content := some 4 }]

/-- In `latePaint` the symbol is mentioned first, and the other pattern first as a paint. -/
theorem canvas_order_latePaint :
    latePaint.Valid ∧ ∃ c, latePaint.view.compile {} = .ok c ∧
      latePaint.view.mentions 256 = [⟨0, .symbol⟩, ⟨1, .paint⟩, ⟨0, .paint⟩] ∧
      c.canvases.map (fun k => (k.id, k.hidden)) = [(0, false), (2, true), (1, true)] := by
  have hvalid : latePaint.Valid := by decide +kernel
  have hcompiles : (latePaint.view.compile {}).toOption.any (fun _ => true) = true := by
    decide +kernel
  obtain ⟨c, hc, -⟩ := exists_ok_of_any hcompiles
  have hmentions : latePaint.view.mentions 256 = [⟨0, .symbol⟩, ⟨1, .paint⟩, ⟨0, .paint⟩] := by
    decide +kernel
  refine ⟨hvalid, c, hc, hmentions, ?_⟩
  refine (Artwork.canvas_order hc).2.1.trans ?_
  change _ :: (Mention.paintedAsUsed (latePaint.view.mentions 256)).map (fun handle =>
    ((Mention.painted (latePaint.view.mentions 256)).idxOf handle + 1, true)) = _
  rw [hmentions]
  decide

/-- The numbers of the canvases in `latePaint` are not their places. -/
theorem canvases_not_in_order_latePaint :
    latePaint.Valid ∧ ∃ c, latePaint.view.compile {} = .ok c ∧
      c.canvases.map Canvas.id = [0, 2, 1] := by
  have hcompiles : (latePaint.view.compile {}).toOption.any (fun c =>
      c.canvases.map Canvas.id == [0, 2, 1]) = true := by
    decide +kernel
  obtain ⟨c, hc, hids⟩ := exists_ok_of_any hcompiles
  exact ⟨by decide +kernel, c, hc, beq_iff_eq.mp hids⟩

end ArtDocument

end ArtCanvas
