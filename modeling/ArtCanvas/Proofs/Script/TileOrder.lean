import ArtCanvas.Proofs.Compile.Canvases
import ArtCanvas.Proofs.Scan.Unfolding
import ArtCanvas.Proofs.Script.Scopes
import ArtCanvas.Proofs.Script.SymbolCalls

/-!
# Whether hidden canvases are painted before they are used

A script paints the hidden canvases one after the other, in the order of the table of patterns. The
art of a pattern can be painted with other patterns, and a canvas that is still to be painted is
empty when it is used.

* `Script.TileUses`: the block for one canvas paints with another one.
* `Outline.makePattern_mem_ownStmts`: the canvases that a node is painted with.
* `Compiled.Written.tileUses_iff`: which patterns the art of a block is painted with.
* `ArtDocument.precedes_tileOrder_iff`: the blocks stand in the order in which the patterns are
  first used.
* `ArtDocument.tile_order_iff`: a canvas is painted before it is used exactly if its pattern is not
  first used inside the art that uses it.
-/

namespace ArtCanvas

/-- The canvas that a statement makes a pattern of. -/
def Stmt.patternCanvas? : Stmt → Option Nat
  | .makePattern canvas => some canvas
  | _ => none

theorem Stmt.makePattern_mem_iff {canvas : Nat} {body : List Stmt} :
    .makePattern canvas ∈ body ↔ canvas ∈ body.filterMap Stmt.patternCanvas? :=
  mem_iff_mem_filterMap fun stmt _ => by cases stmt <;> simp [patternCanvas?]

namespace Script

/-- The block that paints the hidden canvas `a` fills or strokes an outline with canvas `b`. -/
def TileUses (s : Script) (a b : Nat) : Prop :=
  ∃ tile ∈ s.tiles, tile.canvas = a ∧ .makePattern b ∈ tile.scope.body

/-- Each block with each canvas that it paints with. -/
def tileUses (s : Script) : List (Nat × Nat) :=
  s.tiles.flatMap fun tile =>
    (tile.scope.body.filterMap Stmt.patternCanvas?).map fun used => (tile.canvas, used)

theorem mem_tileUses_iff {s : Script} {a b : Nat} : (a, b) ∈ s.tileUses ↔ s.TileUses a b := by
  simp [tileUses, TileUses, Stmt.makePattern_mem_iff, and_comm]

/-- Which canvas uses another is seen in its scope. -/
instance (s : Script) (a b : Nat) : Decidable (s.TileUses a b) :=
  decidable_of_iff _ mem_tileUses_iff

/-- The hidden canvases, in the order in which they are painted. -/
def tileOrder (s : Script) : List Nat := s.tiles.map Tile.canvas

end Script

/-! ### The canvases that a node is painted with -/

namespace Outline

variable {o : Outline} {art : Artwork} {transform : Affine Float} {active : Option Nat}
  {node canvas : Nat}

variable (o art) in
/-- A paint of the node is a pattern with the given canvas. -/
def PaintsFrom (node : Nat) (target : PaintTarget) (canvas : Nat) : Prop :=
  ∃ handle, art.paint node target = .pattern handle ∧
    (o.patterns.find? handle).bind Pattern.canvas = some canvas

/-- Choosing a paint makes a pattern of the canvas of that paint. -/
theorem makePattern_mem_choosePaint {target : PaintTarget} :
    (∃ choose, o.choosePaint art transform node target = some choose ∧
      .makePattern canvas ∈ choose) ↔ o.PaintsFrom art node target canvas := by
  unfold choosePaint PaintsFrom
  cases hpaint : art.paint node target with
  | none => simp
  | solid => simp
  | gradient => simp
  | pattern handle =>
    cases hcanvas : (o.patterns.find? handle).bind Pattern.canvas with
    | none => simp [hcanvas]
    | some canvas' => simp [hcanvas, eq_comm]

theorem makePattern_mem_paintFill :
    .makePattern canvas ∈ o.paintFill art transform node ↔ o.PaintsFrom art node .fill canvas := by
  rw [← makePattern_mem_choosePaint, paintFill]
  cases o.choosePaint art transform node .fill <;> simp

theorem makePattern_mem_paintStroke :
    .makePattern canvas ∈ o.paintStroke art transform node ↔
      o.PaintsFrom art node .stroke canvas := by
  rw [← makePattern_mem_choosePaint, paintStroke]
  cases o.choosePaint art transform node .stroke <;> simp

/-- An outline is painted with the canvases of its two paints. -/
theorem makePattern_mem_paintOutline (hkind : art.kind node = .plain) :
    .makePattern canvas ∈ o.paintOutline art transform node ↔
      art.HasOutline node ∧ ∃ target, o.PaintsFrom art node target canvas := by
  rcases o.paintOutline_cases art transform node with
    ⟨path, path', hpath, hempty, heq⟩ | ⟨hnone, heq⟩
  · have houtline : art.HasOutline node := ⟨hkind, path, hpath, hempty⟩
    rw [heq, PaintTarget.exists_iff]
    simp [houtline, makePattern_mem_paintFill, makePattern_mem_paintStroke]
  · -- without a paint there are no statements, and no canvas either
    rw [heq]
    refine iff_of_false (by simp) ?_
    rintro ⟨⟨-, path, hpath, hsome⟩, target, handle, hpaint, -⟩
    rcases hnone with hempty | hunpainted
    · rw [hempty path hpath] at hsome
      cases hsome
    · rw [hunpainted target] at hpaint
      cases hpaint

/-- A symbol is painted by a call, without a pattern. -/
theorem makePattern_not_mem_paintSymbol :
    .makePattern canvas ∉ o.paintSymbol art transform active node := by
  intro hmem
  cases placesSymbol_of_mem hmem

/-- The statements of a node make patterns of the canvases that its outline is painted with. -/
theorem makePattern_mem_ownStmts :
    .makePattern canvas ∈ o.ownStmts art transform active node ↔
      art.HasOutline node ∧ ∃ target, o.PaintsFrom art node target canvas := by
  -- what is written around the statements for opacity makes no pattern
  have hopacity : .makePattern canvas ∈ o.ownStmts art transform active node ↔
      .makePattern canvas ∈ o.paintSelf art transform active node := by
    simp [ownStmts, mem_withOpacity]
  rw [hopacity]
  unfold paintSelf
  cases hkind : art.kind node with
  | plain => exact makePattern_mem_paintOutline hkind
  | symbol => simp [makePattern_not_mem_paintSymbol, Artwork.HasOutline, hkind]
  | pluginGroup => simp [Artwork.HasOutline, hkind]

end Outline

/-! ### The order of the blocks -/

namespace PatternTable

variable {t : PatternTable}

/-- With the number 0 in place of none, for patterns that have one. -/
theorem canvasIds_eq_map (t : PatternTable) :
    t.canvasIds = t.tiles.map fun p => p.canvas.getD 0 := by
  rw [canvasIds, ← List.filterMap_eq_map]
  refine List.filterMap_congr fun p hp => ?_
  obtain ⟨canvas, hcanvas⟩ := Option.isSome_iff_exists.mp (List.mem_filter.mp hp).2
  simp [hcanvas]

/-- The canvases are listed in the order of the patterns. -/
theorem precedes_canvasIds_iff (hhandles : t.handles.Nodup) (hcanvases : t.canvasIds.Nodup)
    {p q : Pattern} (hp : p ∈ t.patterns) (hq : q ∈ t.patterns) {a b : Nat}
    (ha : p.canvas = some a) (hb : q.canvas = some b) :
    Precedes t.canvasIds a b ↔ Precedes t.handles p.handle q.handle := by
  have hpt : p ∈ t.tiles := List.mem_filter.mpr ⟨hp, by rw [ha]; rfl⟩
  have hqt : q ∈ t.tiles := List.mem_filter.mpr ⟨hq, by rw [hb]; rfl⟩
  rw [canvasIds_eq_map] at hcanvases ⊢
  -- from numbers to the patterns that have one, to all patterns, to their positions
  calc Precedes (t.tiles.map fun p => p.canvas.getD 0) a b
      ↔ Precedes (t.tiles.map fun p => p.canvas.getD 0) (p.canvas.getD 0) (q.canvas.getD 0) := by
        rw [ha, hb]
        rfl
    _ ↔ Precedes t.tiles p q :=
        Precedes.map_iff (List.inj_on_of_nodup_map hcanvases) hpt hqt
    _ ↔ Precedes t.patterns p q :=
        Precedes.filter_iff (List.mem_filter.mp hpt).2 (List.mem_filter.mp hqt).2
    _ ↔ Precedes t.handles p.handle q.handle :=
        (Precedes.map_iff (List.inj_on_of_nodup_map hhandles) hp hq).symm

end PatternTable

namespace Compiled.Written

variable {c : Compiled} {art : Artwork} {options : CompileOptions} {script : Script}
  (h : c.Written art script)

include h

/-- There is one block for each hidden canvas. -/
theorem tileOrder_eq : script.tileOrder = c.patterns.canvasIds := by
  rw [Script.tileOrder, h.tiles, List.map_map, List.map_filterMap, PatternTable.canvasIds]
  refine List.filterMap_congr fun p _ => ?_
  cases p.canvas <;> rfl

/-- A block paints with the canvases of the patterns that are paints of outlines in its art. -/
theorem tileUses_iff {a b : Nat} :
    script.TileUses a b ↔ ∃ p ∈ c.patterns.patterns, p.canvas = some a ∧
      ∃ node ∈ art.paintTour c.outline.maxDepth p.content, art.HasOutline node ∧
        ∃ target, c.outline.PaintsFrom art node target b := by
  rw [Script.TileUses, h.tiles]
  constructor
  · -- a block is written for an entry of the table, and each of its statements for a node
    rintro ⟨tile, htile, rfl, hmem⟩
    obtain ⟨⟨p, canvas⟩, hentry, rfl⟩ := List.mem_map.mp htile
    obtain ⟨p', hp', hcanvas⟩ := List.mem_filterMap.mp hentry
    obtain ⟨canvas', hcanvas', heq⟩ := Option.map_eq_some_iff.mp hcanvas
    obtain ⟨rfl, rfl⟩ := Prod.mk.inj heq
    obtain ⟨node, hnode, hown⟩ := mem_paintFrom.mp hmem
    exact ⟨p', (List.mem_filter.mp hp').1, hcanvas', node, hnode,
      Outline.makePattern_mem_ownStmts.mp hown⟩
  · rintro ⟨p, hp, ha, node, hnode, hpaints⟩
    have hentry : (p, a) ∈ c.patterns.tiles.filterMap fun p => p.canvas.map fun canvas =>
        (p, canvas) := by
      refine List.mem_filterMap.mpr ⟨p, List.mem_filter.mpr ⟨hp, by rw [ha]; rfl⟩, ?_⟩
      rw [ha]
      rfl
    exact ⟨c.outlineTile art (p, a), List.mem_map.mpr ⟨_, hentry, rfl⟩, rfl,
      mem_paintFrom.mpr ⟨node, hnode, Outline.makePattern_mem_ownStmts.mpr hpaints⟩⟩

end Compiled.Written

namespace Artwork

variable {art : Artwork} {options : CompileOptions} {c : Compiled}

/-- No two patterns of a compiled document share a canvas. -/
theorem nodup_canvasIds [CurveLibrary] (hc : art.compile options = .ok c) :
    c.patterns.canvasIds.Nodup :=
  (allots_of_compile hc).canvasIds_perm.nodup_iff.mpr List.nodup_range'

end Artwork

namespace ArtDocument

variable {doc : ArtDocument} {options : CompileOptions} {c : Compiled} {script : Script}

/-- The patterns of a compiled document are those in use, in the same order. -/
theorem handles_of_compile [CurveLibrary] (hc : doc.view.compile options = .ok c) :
    c.patterns.handles = doc.inUse options.maxDepth := by
  rw [(Artwork.drawn_of_compile hc).2.2.1]
  exact PatternTable.map_nameSymbols (fun _ _ => rfl) _ _

/-- The blocks stand in the order in which the patterns are first used. -/
theorem precedes_tileOrder_iff [CurveLibrary] (hc : doc.view.compile options = .ok c)
    (hwritten : c.Written doc.view script) {p q : Pattern} (hp : p ∈ c.patterns.patterns)
    (hq : q ∈ c.patterns.patterns) {a b : Nat} (ha : p.canvas = some a) (hb : q.canvas = some b) :
    Precedes script.tileOrder a b ↔
      Precedes (doc.inUse options.maxDepth) p.handle q.handle := by
  rw [hwritten.tileOrder_eq, ← handles_of_compile hc]
  exact PatternTable.precedes_canvasIds_iff (Artwork.patternsNamed_of_compile hc).handles
    (Artwork.nodup_canvasIds hc) hp hq ha hb

/-- Where nothing was left out, a pattern that outlines in the art of another one are painted with
comes before it, or is first used inside its art. -/
theorem WellLinked.precedes_of_painted [CurveLibrary] (h : doc.WellLinked)
    (hc : doc.view.compile options = .ok c)
    (hnone : (doc.view.scan options.maxDepth).2.warnings = []) {p q : Pattern}
    (hp : p ∈ c.patterns.patterns) {levels node : Nat}
    (hnode : node ∈ doc.view.paintTour levels p.content) {target : PaintTarget}
    (hpaint : doc.view.paint node target = .pattern q.handle) (hne : q.handle ≠ p.handle) :
    Precedes (doc.inUse options.maxDepth) q.handle p.handle ∨
      Relation.TransGen (doc.FirstUsedIn options.maxDepth) p.handle q.handle := by
  have hmem : p.handle ∈ doc.inUse options.maxDepth := by
    rw [← handles_of_compile hc]
    exact List.mem_map_of_mem hp
  obtain ⟨levels', hskipped, huses⟩ := h.exists_tour_of_inUse hmem
  rw [(Artwork.pattern_of_compile hc hp).1] at hnode
  have htour := Artwork.paintTour_subset_tour (Or.inr (hskipped hnone)) hnode
  rcases huses node htour q.handle (Or.inr ⟨target, hpaint⟩) with hbefore | heq | hinside
  · exact Or.inl hbefore
  · exact absurd heq hne
  · exact Or.inr hinside

/-- A chain of two patterns: the outline in the art of the first one is painted with the second. -/
def nestedTiles : ArtDocument where
  layers := #[{ name := "a", art := some 0 }]
  nodes := #[
    { bounds := unitBox, fill := .pattern 0, path := some "M0 0 L1 0" },
    { bounds := unitBox, fill := .pattern 1, path := some "M0 0 L1 0" },
    { bounds := unitBox, fill := .solid ⟨255, 0, 0, 255⟩, path := some "M0 0 L1 0" }]
  patterns := #[{ name := "outer", content := some 1 }, { name := "inner", content := some 2 }]

/-- For every document that passes the check and can be compiled, a script is written, with one
block for each hidden canvas. Where the block for canvas `a` paints with canvas `b`, both are those
of patterns in use. A pattern that is first used in the art of the other, or in art that is first
used there, comes later, and its canvas is empty when it is used. If the scan left nothing out, all
other canvases are painted before they are used. -/
theorem tile_order_iff [CurveLibrary] (hvalid : doc.Valid) (hc : doc.view.compile options = .ok c) :
    ∃ script, c.script doc.view c.outline.renderer = .ok script ∧
      (∀ o : EmitOptions, c.emit doc.view o = .ok (script.text o)) ∧
      script.tileOrder.Nodup ∧
      ∀ a b, script.TileUses a b →
        ∃ p ∈ c.patterns.patterns, ∃ q ∈ c.patterns.patterns,
          p.canvas = some a ∧ q.canvas = some b ∧
            (Relation.TransGen (doc.FirstUsedIn options.maxDepth) p.handle q.handle →
              Precedes script.tileOrder a b) ∧
            ((doc.view.scan options.maxDepth).2.warnings = [] → a ≠ b →
              (Precedes script.tileOrder b a ↔
                ¬ Relation.TransGen (doc.FirstUsedIn options.maxDepth) p.handle q.handle)) := by
  have h := hvalid.wellLinked
  obtain ⟨script, hscript, hwritten⟩ := c.exists_script doc.view
  have hnodup : script.tileOrder.Nodup := by
    rw [hwritten.tileOrder_eq]
    exact Artwork.nodup_canvasIds hc
  refine ⟨script, hscript, Compiled.emit_of_script hscript, hnodup, fun a b huses => ?_⟩
  obtain ⟨p, hp, ha, node, hnode, -, target, handle, hpaint, hcanvas⟩ :=
    hwritten.tileUses_iff.mp huses
  obtain ⟨q, hfind, hb⟩ := Option.bind_eq_some_iff.mp hcanvas
  obtain rfl := PatternTable.find?_handle hfind
  have hq : q ∈ c.patterns.patterns := List.mem_of_find?_eq_some hfind
  have hinside : Relation.TransGen (doc.FirstUsedIn options.maxDepth) p.handle q.handle →
      Precedes script.tileOrder a b := fun hinside =>
    (precedes_tileOrder_iff hc hwritten hp hq ha hb).mpr (h.precedes_of_transGen hinside)
  refine ⟨p, hp, q, hq, ha, hb, hinside, fun hnone hne => ⟨fun hbefore hinner => ?_, fun hno => ?_⟩⟩
  -- no block stands both before and behind another one
  · exact (hinside hinner).asymm hnodup hbefore
  · -- one pattern has only one canvas, so these are two patterns
    have hhandles : q.handle ≠ p.handle := by
      intro heq
      obtain rfl := List.inj_on_of_nodup_map (Artwork.patternsNamed_of_compile hc).handles hq hp heq
      exact hne (Option.some.inj (ha.symm.trans hb))
    have hbefore := (h.precedes_of_painted hc hnone hp hnode hpaint hhandles).resolve_right hno
    exact (precedes_tileOrder_iff hc hwritten hq hp hb ha).mpr hbefore

/-- In `nestedTiles` the second pattern is first used in the art of the first one. So the block for
canvas 1 stands before that for canvas 2, with which it paints. -/
theorem tile_order_nestedTiles :
    nestedTiles.Valid ∧ ∃ c script, nestedTiles.view.compile {} = .ok c ∧
      c.script nestedTiles.view c.outline.renderer = .ok script ∧ script.TileUses 1 2 ∧
      Precedes script.tileOrder 1 2 := by
  have hvalid : nestedTiles.Valid := by decide +kernel
  have hcompile : (nestedTiles.view.compile {}).toOption.any (fun c =>
      decide (c.patterns.patterns.map (fun p => (p.handle, p.canvas)) = [(0, some 1), (1, some 2)])
        && (c.script nestedTiles.view c.outline.renderer).toOption.any fun script =>
          script.TileUses 1 2) = true := by decide +kernel
  have huses : (nestedTiles.view.scan 256).2.firstUses = [⟨0, 0⟩, ⟨1, 1⟩] := by decide +kernel
  obtain ⟨c, hc, hscript⟩ := exists_ok_of_any hcompile
  obtain ⟨hpatterns, hscript⟩ := (Bool.and_eq_true _ _).mp hscript
  obtain ⟨script, hscript, htile⟩ := exists_ok_of_any hscript
  have htile : script.TileUses 1 2 := of_decide_eq_true htile
  refine ⟨hvalid, c, script, hc, hscript, htile, ?_⟩
  obtain ⟨script', hscript', -, -, hblocks⟩ := tile_order_iff hvalid hc
  cases hscript.symm.trans hscript'
  obtain ⟨p, hp, q, hq, ha, hb, hinside, -⟩ := hblocks 1 2 htile
  -- both patterns have the canvas behind their own position
  have hcanvas : ∀ r ∈ c.patterns.patterns, ∀ n, r.canvas = some n → r.handle + 1 = n := by
    intro r hr n hn
    have hmem := List.mem_map_of_mem (f := fun p : Pattern => (p.handle, p.canvas)) hr
    rw [of_decide_eq_true hpatterns] at hmem
    simp only [List.mem_cons, Prod.mk.injEq, List.not_mem_nil, or_false] at hmem
    rcases hmem with ⟨hhandle, hr⟩ | ⟨hhandle, hr⟩ <;>
      · rw [hn, Option.some.injEq] at hr
        omega
  refine hinside (.single ⟨⟨1, 1⟩, ?_, ?_, [], ?_⟩)
  · rw [show (nestedTiles.view.scan _).2.firstUses = _ from huses]
    simp
  · exact (Nat.succ.inj (hcanvas q hq 2 hb)).symm
  · rw [Nat.succ.inj (hcanvas p hp 1 ha)]
    decide

/-- In `nestedTiles` no blocks paint with each other's canvases in a circle, and still the block for
canvas 2 does not precede that for canvas 1, which paints with canvas 2. -/
theorem tile_not_ready_nestedTiles :
    nestedTiles.Valid ∧ ∃ c script, nestedTiles.view.compile {} = .ok c ∧
      c.script nestedTiles.view c.outline.renderer = .ok script ∧
      (∀ a, ¬ Relation.TransGen script.TileUses a a) ∧
      script.TileUses 1 2 ∧ ¬ Precedes script.tileOrder 2 1 := by
  have hcompile : (nestedTiles.view.compile {}).toOption.any (fun c =>
      (c.script nestedTiles.view c.outline.renderer).toOption.any fun script =>
        decide (script.tileUses = [(1, 2)]) && decide (script.tileOrder = [1, 2])) = true := by
    decide +kernel
  obtain ⟨c, hc, hscript⟩ := exists_ok_of_any hcompile
  obtain ⟨script, hscript, hboth⟩ := exists_ok_of_any hscript
  obtain ⟨huses, horder⟩ := (Bool.and_eq_true _ _).mp hboth
  have honly : ∀ a b, script.TileUses a b ↔ a = 1 ∧ b = 2 := by
    intro a b
    rw [← Script.mem_tileUses_iff, of_decide_eq_true huses, List.mem_singleton, Prod.mk.injEq]
  refine ⟨by decide +kernel, c, script, hc, hscript, fun a hcircle => ?_, ?_, ?_⟩
  · -- the first step of a circle would start at canvas 1, and the last one end at canvas 2
    obtain ⟨b, hfirst, -⟩ := Relation.TransGen.head'_iff.mp hcircle
    obtain ⟨b', -, hlast⟩ := Relation.TransGen.tail'_iff.mp hcircle
    have hone := ((honly a b).mp hfirst).1
    have htwo := ((honly b' a).mp hlast).2
    omega
  · exact (honly 1 2).mpr ⟨rfl, rfl⟩
  · rw [of_decide_eq_true horder]
    decide

end ArtDocument

end ArtCanvas
