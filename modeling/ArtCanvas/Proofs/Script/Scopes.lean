import ArtCanvas.Proofs.Compile.Drawn
import ArtCanvas.Proofs.Pattern.Names
import ArtCanvas.Proofs.Scan.Records
import ArtCanvas.Proofs.Script.Painted
import ArtCanvas.Proofs.Script.Written

/-!
# Whether scopes declare what they use

What a scope declares was found by the scan, and what its statements use is found by the renderer.
The two go around the art with limits of their own: the scan with that of the compiler, which counts
from the page, and the renderer with a fixed one, which counts from the scope.

* `Part`: what is painted in one scope.
* `Part.Paints`, `Part.Scans`: what the renderer uses for a part, and where the scan came.
* `Compiled.forall₂_scopes`: the scopes of a script, one for each part.
* `Compiled.paintsBody_scopes`, `Compiled.fits_scopes`: what they paint, and what they declare.
* `ArtDocument.scope_closed_iff`: a scope is closed exactly if the scan came to all that matters.
-/

namespace ArtCanvas

/-- What is painted in one scope of a script. -/
inductive Part where
  /-- A pattern, as a symbol or on a hidden canvas. -/
  | pattern (p : Pattern)
  /-- The layers of a draw function. -/
  | layers (f : DrawFunction)

namespace Part

/-- What the scan found for the part. -/
def features : Part → Features
  | .pattern p => p.features
  | .layers f => f.features

/-- The first nodes of the art of the part. -/
def firsts (c : Compiled) : Part → List (Option Nat)
  | .pattern p => [p.content]
  | .layers f => f.layers.map fun i => c.layers[i]?.bind Layer.art

/-- The built-in renderer comes to a node of the part whose statements use a local variable. -/
def Paints (c : Compiled) (art : Artwork) (part : Part) (x : Local) : Prop :=
  ∃ first ∈ part.firsts c, ∃ node ∈ art.paintTour c.outline.maxDepth first,
    c.outline.Paints art node x

/-- A scan with the limit `maxDepth` comes to a node of the part. The art of a layer starts at depth
1, that of a pattern one level below the node that uses it first. -/
def Scans (c : Compiled) (art : Artwork) (maxDepth : Nat) : Part → Nat → Prop
  | .pattern p, node => ∃ use ∈ (art.scan maxDepth).2.firstUses, use.handle = p.handle ∧
      ∃ depth, art.VisitedAt maxDepth (art.scan maxDepth).2.firstUses use.node depth ∧
        art.Shows maxDepth p.content (depth + 1) node
  | .layers f, node =>
    ∃ i ∈ f.layers, art.Shows maxDepth (c.layers[i]?.bind Layer.art) 1 node

end Part

/-- The part of a draw function, unless it is painted from an image file. -/
def Part.ofDraw? (f : DrawFunction) : Option Part :=
  if f.imageFile.isNone then some (.layers f) else none

/-- The parts of a compiled document: the symbols, the hidden canvases, and the draw functions that
are not painted from an image file. -/
def Compiled.parts (c : Compiled) : List Part :=
  c.patterns.symbols.map .pattern ++ c.patterns.tiles.map .pattern ++
    (c.functions.draws.map Prod.snd).filterMap Part.ofDraw?

/-- The node has a feature that asks for a local variable. -/
def Artwork.Asks (art : Artwork) (node : Nat) : Local → Prop
  | .alpha => art.opacity node != 1.0
  | .gradient => ∃ target, art.paint node target = .gradient
  | .pattern => ∃ target handle, art.paint node target = .pattern handle

/-- Needs that are those of some nodes ask for what one of the nodes asks for. -/
theorem Features.AreOf.has_iff {f : Features} {art : Artwork} {shown : Nat → Prop}
    (h : f.AreOf art shown) (x : Local) :
    f.has x = true ↔ ∃ node, shown node ∧ art.Asks node x := by
  cases x with
  | alpha => exact h.alpha
  | gradient => exact h.gradients
  | pattern => exact h.patterns

/-- What the statements of a node use, the node asks for. -/
theorem Outline.Paints.asks {o : Outline} {art : Artwork} {node : Nat} {x : Local}
    (h : o.Paints art node x) : art.Asks node x := by
  rcases h with ⟨rfl, hopacity⟩ | ⟨-, target, htarget⟩
  · exact hopacity
  · cases x with
    | alpha => exact htarget.elim
    | gradient => exact ⟨target, htarget⟩
    | pattern =>
      obtain ⟨handle, -, hpaint, -⟩ := htarget
      exact ⟨target, handle, hpaint⟩

namespace Compiled

variable (c : Compiled) (art : Artwork)

/-- The scope of a part is made from what the scan found and from what the renderer paints. -/
def Fits (part : Part) (scope : Scope) : Prop :=
  scope.locals = part.features ∧ ∀ x, scope.Uses x ↔ part.Paints c art x

variable {c art}

/-- A pattern paints what its art paints. -/
theorem paints_pattern {p : Pattern} {x : Local} :
    (Part.pattern p).Paints c art x ↔
      ∃ node ∈ art.paintTour c.outline.maxDepth p.content, c.outline.Paints art node x := by
  simp [Part.Paints, Part.firsts]

/-- The scope of a symbol fits its pattern. -/
theorem fits_symbol (p : Pattern) :
    c.Fits art (.pattern p) (c.outlineSymbol art p).scope :=
  ⟨rfl, fun _ => Outline.use_paintSiblings.trans paints_pattern.symm⟩

/-- So does that of a hidden canvas. -/
theorem fits_tile (entry : Pattern × Nat) :
    c.Fits art (.pattern entry.1) (c.outlineTile art entry).scope :=
  ⟨rfl, fun _ => Outline.use_paintSiblings.trans paints_pattern.symm⟩

/-- The scope of a draw function fits its layers. -/
theorem fits_layers (f : DrawFunction) : c.Fits art (.layers f) (c.outlineLayers art f) := by
  refine ⟨rfl, fun x => ?_⟩
  rw [Part.Paints, Part.firsts, Scope.Uses, outlineLayers, Stmt.use_flatMap]
  simp [paintFrom, Outline.use_paintSiblings]

/-- The hidden canvases belong to the patterns that have one. -/
theorem map_fst_tiles (t : PatternTable) :
    (t.tiles.filterMap fun p => p.canvas.map fun canvas => (p, canvas)).map Prod.fst = t.tiles := by
  unfold PatternTable.tiles
  induction t.patterns with
  | nil => rfl
  | cons p patterns ih =>
    rw [List.filter_cons]
    split
    next hcanvas =>
      obtain ⟨canvas, hcanvas⟩ := Option.isSome_iff_exists.mp hcanvas
      rw [List.filterMap_cons, hcanvas]
      simpa using ih
    next => exact ih

/-- What holds of the scope of every draw function holds of the scopes of their objects. An object
that is painted from an image file has none. -/
theorem forall₂_objects {R : Part → Scope → Prop}
    (hlayers : ∀ f, R (.layers f) (c.outlineLayers art f)) (draws : List DrawFunction) :
    List.Forall₂ R (draws.filterMap Part.ofDraw?)
      ((draws.map (c.outlineObject art)).filterMap DrawObject.scope?) := by
  induction draws with
  | nil => exact .nil
  | cons f draws ih =>
    rw [List.map_cons, List.filterMap_cons, List.filterMap_cons]
    unfold Part.ofDraw? outlineObject DrawObject.scope? at ih ⊢
    cases f.imageFile with
    | some file => exact ih
    | none => exact .cons (hlayers f) ih

/-- A script of the built-in renderer has one scope for each part, so what holds of the scopes that
the renderer makes holds of those of the script. -/
theorem forall₂_scopes {R : Part → Scope → Prop} {script : Script} (h : c.Written art script)
    (hsymbol : ∀ p, R (.pattern p) (c.outlineSymbol art p).scope)
    (htile : ∀ entry, R (.pattern entry.1) (c.outlineTile art entry).scope)
    (hlayers : ∀ f, R (.layers f) (c.outlineLayers art f)) :
    List.Forall₂ R c.parts script.scopes := by
  have htiled : c.patterns.tiles.map Part.pattern = (c.patterns.tiles.filterMap fun p =>
      p.canvas.map fun canvas => (p, canvas)).map (Part.pattern ∘ Prod.fst) := by
    rw [← List.map_map, map_fst_tiles]
  rw [parts, Script.scopes, h.symbols, h.tiles, h.objects, htiled, List.map_map, List.map_map]
  -- symbols, hidden canvases and draw functions, in the order in which both list them
  refine List.rel_append (List.rel_append ?_ ?_) ?_
  · rw [List.forall₂_map_left_iff, List.forall₂_map_right_iff, List.forall₂_same]
    exact fun p _ => hsymbol p
  · rw [List.forall₂_map_left_iff, List.forall₂_map_right_iff, List.forall₂_same]
    exact fun entry _ => htile entry
  · have hobjects : List.Forall₂ R _ _ :=
      forall₂_objects hlayers (c.functions.draws.map Prod.snd)
    rwa [List.map_map] at hobjects

/-- A draw function that paints art is a part. -/
theorem layers_mem_parts {entry : Nat × DrawFunction} (h : entry ∈ c.functions.draws)
    (hfile : entry.2.imageFile = none) : .layers entry.2 ∈ c.parts := by
  refine List.mem_append_right _ (List.mem_filterMap.mpr ⟨_, List.mem_map_of_mem h, ?_⟩)
  rw [Part.ofDraw?, hfile]
  rfl

/-- A draw function that paints art has a scope. -/
theorem outlineLayers_mem_scopes (art : Artwork) {entry : Nat × DrawFunction}
    (h : entry ∈ c.functions.draws) (hfile : entry.2.imageFile = none) :
    c.outlineLayers art entry.2 ∈ (c.outlineScript art).scopes := by
  refine List.mem_append_right _ (List.mem_filterMap.mpr ⟨_, List.mem_map_of_mem h, ?_⟩)
  rw [DrawObject.scope?, outlineObject, hfile]

/-- Each scope declares what was found for its part, and uses what is painted of it. -/
theorem fits_scopes {script : Script} (h : c.Written art script) :
    List.Forall₂ (c.Fits art) c.parts script.scopes :=
  forall₂_scopes h fits_symbol fits_tile fits_layers

/-- The statements of a scope paint the art of a part, from its first nodes on. -/
def PaintsBody (c : Compiled) (art : Artwork) (part : Part) (scope : Scope) : Prop :=
  ∃ transform active, scope.body = (part.firsts c).flatMap (c.paintFrom art transform active)

/-- The statements of each scope paint the art of its part. -/
theorem paintsBody_scopes {script : Script} (h : c.Written art script) :
    List.Forall₂ (c.PaintsBody art) c.parts script.scopes := by
  refine forall₂_scopes h (fun p => ⟨p.bounds.contentTransform, some p.handle, ?_⟩)
    (fun entry => ⟨entry.1.bounds.contentTransform, none, ?_⟩)
    fun f => ⟨f.placement.localTransform c.bounds, none, ?_⟩
  · simp [Part.firsts, outlineSymbol]
  · simp [Part.firsts, outlineTile]
  · simp [Part.firsts, outlineLayers, List.flatMap_map]

/-- Each scope paints the art of some part. -/
theorem exists_paintsBody {script : Script} (h : c.Written art script) {scope : Scope}
    (hscope : scope ∈ script.scopes) : ∃ part ∈ c.parts, c.PaintsBody art part scope := by
  obtain ⟨hlength, hbodies⟩ := List.forall₂_iff_get.mp (paintsBody_scopes h)
  obtain ⟨i, rfl⟩ := List.get_of_mem hscope
  have hi : i.1 < c.parts.length := by rw [hlength]; exact i.2
  exact ⟨c.parts.get ⟨i.1, hi⟩, List.get_mem _ _, hbodies i.1 hi i.2⟩

end Compiled

/-- Layers together need what one of them needs. -/
theorem Layer.has_featuresAt {layers : List Layer} {positions : List Nat} {x : Local} :
    (featuresAt layers positions).has x = true ↔
      ∃ i ∈ positions, ∃ l, layers[i]? = some l ∧ l.features.has x = true := by
  induction positions with
  | nil => simp [featuresAt]
  | cons i positions ih =>
    rw [featuresAt, List.map_cons, List.foldr_cons, ← featuresAt, Features.has_merge,
      Bool.or_eq_true, ih, List.exists_mem_cons_iff]
    cases layers[i]? <;> simp

namespace Artwork

variable {art : Artwork} {options : CompileOptions} {c : Compiled}

/-- From nowhere no node is shown. -/
theorem not_shows_none {maxDepth start node : Nat} : ¬ art.Shows maxDepth none start node := by
  rintro ⟨depth, hpass, -⟩
  induction hpass with
  | first h _ => cases h
  | sibling _ _ ih => exact ih
  | child _ _ _ _ ih => exact ih
  | result _ _ _ _ _ _ ih => exact ih

/-- The art of a layer is the same before and after its options. -/
theorem art_of_compile [CurveLibrary] (hc : art.compile options = .ok c) (i : Nat) :
    c.layers[i]?.bind Layer.art = (art.scan options.maxDepth).1[i]?.bind Layer.art := by
  have hlayers := congrArg (fun layers => layers[i]?.bind Layer.art) (drawn_of_compile hc).1
  simp only [List.getElem?_map, Option.bind_map] at hlayers
  exact hlayers

/-- A pattern of a compiled document is one that the scan registered, with the same features. -/
theorem pattern_of_compile [CurveLibrary] (hc : art.compile options = .ok c) {p : Pattern}
    (hp : p ∈ c.patterns.patterns) :
    p.content = art.patternContent p.handle ∧
      ∃ q ∈ (art.scan options.maxDepth).2.patterns.patterns,
        q.handle = p.handle ∧ q.features = p.features := by
  rw [(drawn_of_compile hc).2.2.1] at hp
  obtain ⟨q, hq, hnamed⟩ := PatternTable.exists_of_mem_nameSymbols hp
  obtain ⟨symbolFunction, rfl⟩ := hnamed.exists_eq
  obtain ⟨regs, heffect⟩ := art.effect_scan options.maxDepth
  obtain ⟨-, -, -, hcontent, -⟩ := heffect.exists_registration hq
  exact ⟨hcontent, q, hq, rfl, rfl⟩

/-- The parts are patterns in use and draw functions. -/
theorem cases_of_mem_parts {part : Part} (hpart : part ∈ c.parts) :
    (∃ p ∈ c.patterns.patterns, part = .pattern p) ∨
      ∃ f, .draw f ∈ c.functions.functions ∧ part = .layers f := by
  rcases List.mem_append.mp hpart with hpattern | hdraw
  · rcases List.mem_append.mp hpattern with hsymbol | htile
    · obtain ⟨p, hp, rfl⟩ := List.mem_map.mp hsymbol
      exact Or.inl ⟨p, List.mem_of_mem_filter hp, rfl⟩
    · obtain ⟨p, hp, rfl⟩ := List.mem_map.mp htile
      exact Or.inl ⟨p, List.mem_of_mem_filter hp, rfl⟩
  · obtain ⟨f, hf, hsome⟩ := List.mem_filterMap.mp hdraw
    obtain ⟨entry, hentry, rfl⟩ := List.mem_map.mp hf
    obtain ⟨⟨g, i⟩, hg, hdraw⟩ := List.mem_filterMap.mp hentry
    refine Or.inr ⟨entry.2, ?_, ?_⟩
    · cases g with
      | animation g => cases hdraw
      | draw g =>
        cases hdraw
        exact List.fst_mem_of_mem_zipIdx hg
    · unfold Part.ofDraw? at hsome
      split at hsome
      · exact (Option.some.inj hsome).symm
      · cases hsome

/-- A scanned layer is that of some visible layer, with the features of its tour. -/
theorem layer_of_scan {maxDepth i : Nat} {l : Layer} (hl : (art.scan maxDepth).1[i]? = some l) :
    ∃ layer ∈ art.visibleLayers, l.art = art.firstArt layer ∧
      l.features = art.needsOf (art.tour maxDepth (art.firstArt layer)) := by
  rw [scan_fst, List.getElem?_map] at hl
  obtain ⟨layer, hlayer, rfl⟩ := Option.map_eq_some_iff.mp hl
  refine ⟨layer, List.mem_of_getElem? hlayer, rfl, ?_⟩
  simp [Layer.ofMeasure, Measure.along]

/-- A compiled document without a warning about the limit comes from a scan without warnings. -/
theorem scan_warnings_of_compile [CurveLibrary] (hc : art.compile options = .ok c)
    (hnone : ∀ levels, Warning.tooDeep levels ∉ c.warnings) :
    (art.scan options.maxDepth).2.warnings = [] := by
  obtain ⟨regs, heffect⟩ := art.effect_scan options.maxDepth
  have hwarnings := heffect.warnings
  refine List.eq_nil_iff_forall_not_mem.mpr fun w hw => ?_
  have hw' := (drawn_of_compile hc).2.2.2 hw
  -- a scan warns about the limit only
  rw [hwarnings] at hw
  obtain rfl := List.eq_of_mem_replicate hw
  exact hnone _ hw'

end Artwork

namespace ArtDocument

/-- A layer needs what the nodes of its art ask for. -/
theorem WellLinked.layer_has_iff [CurveLibrary] {doc : ArtDocument} (h : doc.WellLinked)
    {options : CompileOptions} {c : Compiled} (hc : doc.view.compile options = .ok c) (i : Nat)
    (x : Local) :
    (∃ l, (doc.view.scan options.maxDepth).1[i]? = some l ∧ l.features.has x = true) ↔
      ∃ node, doc.view.Shows options.maxDepth (c.layers[i]?.bind Layer.art) 1 node ∧
        doc.view.Asks node x := by
  rw [Artwork.art_of_compile hc]
  cases hl : (doc.view.scan options.maxDepth).1[i]? with
  | none => simp [Artwork.not_shows_none]
  | some l =>
    obtain ⟨layer, -, hart, hneeds⟩ := Artwork.layer_of_scan hl
    have hshows : ∀ node, node ∈ doc.view.tour options.maxDepth (doc.view.firstArt layer) ↔
        doc.view.Shows options.maxDepth (doc.view.firstArt layer) 1 node := fun node =>
      h.mem_tour_iff (.layer layer) le_rfl
    simp [hneeds, (doc.view.needsOf_areOf _).has_iff, hart, hshows]

/-- What a scope declares is what the nodes ask for that the scan came to. -/
theorem WellLinked.has_features_iff [CurveLibrary] {doc : ArtDocument} (h : doc.WellLinked)
    {options : CompileOptions} {c : Compiled} (hc : doc.view.compile options = .ok c) {part : Part}
    (hpart : part ∈ c.parts) (x : Local) :
    part.features.has x = true ↔
      ∃ node, part.Scans c doc.view options.maxDepth node ∧ doc.view.Asks node x := by
  rcases Artwork.cases_of_mem_parts hpart with ⟨p, hp, rfl⟩ | ⟨f, hf, rfl⟩
  · obtain ⟨hcontent, q, hq, hhandle, hfeatures⟩ := Artwork.pattern_of_compile hc hp
    obtain ⟨use, huse, husehandle, -, depth, hdepth, hareOf⟩ :=
      h.pattern_records options.maxDepth hq
    change p.features.has x = true ↔ _
    rw [← hfeatures, hareOf.has_iff, hhandle, ← hcontent]
    constructor
    · rintro ⟨node, hshows, hasks⟩
      exact ⟨node, ⟨use, huse, husehandle.trans hhandle, depth, (hdepth depth).mpr rfl, hshows⟩,
        hasks⟩
    · rintro ⟨node, ⟨use', huse', husehandle', depth', hvisited, hshows⟩, hasks⟩
      -- a pattern has one first use, which is visited at one depth
      obtain rfl := List.inj_on_of_nodup_map (doc.view.nodup_firstUses options.maxDepth) huse huse'
        (husehandle.trans (hhandle.trans husehandle'.symm))
      obtain rfl := (hdepth depth').mp hvisited
      exact ⟨node, hshows, hasks⟩
  · -- a draw function needs what its layers need, and each layer what its tour needs
    have hdraws : f.features = _ := (Artwork.drawn_of_compile hc).2.1 _ hf
    change f.features.has x = true ↔ ∃ node, (∃ i ∈ f.layers, _) ∧ _
    rw [hdraws, Layer.has_featuresAt]
    constructor
    · rintro ⟨i, hi, hl⟩
      obtain ⟨node, hshows, hasks⟩ := (h.layer_has_iff hc i x).mp hl
      exact ⟨node, ⟨i, hi, hshows⟩, hasks⟩
    · rintro ⟨node, ⟨i, hi, hshows⟩, hasks⟩
      exact ⟨i, hi, (h.layer_has_iff hc i x).mpr ⟨node, hshows, hasks⟩⟩

/-- Where the scan left nothing out, it came to all that is painted of a part. -/
theorem WellLinked.scans_of_painted [CurveLibrary] {doc : ArtDocument} (h : doc.WellLinked)
    {options : CompileOptions} {c : Compiled} (hc : doc.view.compile options = .ok c)
    (hnone : (doc.view.scan options.maxDepth).2.warnings = []) {part : Part}
    (hpart : part ∈ c.parts) {first : Option Nat} (hfirst : first ∈ part.firsts c)
    {levels node : Nat} (hnode : node ∈ doc.view.paintTour levels first) :
    part.Scans c doc.view options.maxDepth node := by
  obtain ⟨regs, heffect⟩ := doc.view.effect_scan options.maxDepth
  obtain ⟨hlayers, hpatterns⟩ := heffect.skipped_eq_nil hnone
  rcases Artwork.cases_of_mem_parts hpart with ⟨p, hp, rfl⟩ | ⟨f, hf, rfl⟩
  · -- the art of a pattern was toured when the pattern was registered
    obtain ⟨hcontent, q, hq, hhandle, -⟩ := Artwork.pattern_of_compile hc hp
    obtain ⟨r, hr, hrhandle, -⟩ := heffect.exists_registration hq
    rw [List.mem_singleton.mp hfirst, hcontent, ← hhandle, ← hrhandle] at hnode
    have htour := Artwork.paintTour_subset_tour (Or.inr (hpatterns r hr)) hnode
    obtain ⟨hlt, hvisited⟩ := h.visitedAt_of_registered (heffect.registered r hr)
    have huses : (doc.view.scan options.maxDepth).2.firstUses =
      regs.map Registration.toPatternUse := heffect.firstUses
    rw [Part.Scans, huses, hcontent, ← hhandle, ← hrhandle]
    refine ⟨r.toPatternUse, List.mem_map.mpr ⟨r, hr, rfl⟩, rfl, _, hvisited, ?_⟩
    rw [show r.levels = options.maxDepth + 1 - (options.maxDepth - r.levels + 1) by omega] at htour
    exact (h.mem_tour_iff (.pattern r.handle) (by omega)).mp htour
  · -- the art of a draw function is that of its layers
    obtain ⟨i, hi, rfl⟩ := List.mem_map.mp hfirst
    refine ⟨i, hi, ?_⟩
    rw [Artwork.art_of_compile hc] at hnode ⊢
    cases hl : (doc.view.scan options.maxDepth).1[i]? with
    | none => simp [hl] at hnode
    | some l =>
      obtain ⟨layer, hlayer, hart, -⟩ := Artwork.layer_of_scan hl
      rw [hl, Option.bind_some, hart] at hnode
      have htour := Artwork.paintTour_subset_tour
        (Or.inr (List.flatMap_eq_nil_iff.mp hlayers layer hlayer)) hnode
      rw [Option.bind_some, hart]
      exact (h.mem_tour_iff (.layer layer) le_rfl).mp htour

/-- Where the scan left nothing out, it found all that is painted. -/
theorem WellLinked.has_of_paints [CurveLibrary] {doc : ArtDocument} (h : doc.WellLinked)
    {options : CompileOptions} {c : Compiled} (hc : doc.view.compile options = .ok c)
    (hnone : (doc.view.scan options.maxDepth).2.warnings = []) {part : Part}
    (hpart : part ∈ c.parts) {x : Local} (hpaints : part.Paints c doc.view x) :
    part.features.has x = true := by
  obtain ⟨first, hfirst, node, hnode, hnodePaints⟩ := hpaints
  exact (h.has_features_iff hc hpart x).mpr
    ⟨node, h.scans_of_painted hc hnone hpart hfirst hnode, hnodePaints.asks⟩

/-- A layer with a node and its child, which is not fully visible. -/
def fadedChild : ArtDocument where
  layers := #[{ name := "a", art := some 0 }]
  nodes := #[{ bounds := unitBox, firstChild := some 1 }, { bounds := unitBox, opacity := 0.5 }]

/-- For every document that passes the check and can be compiled, a script is written, and each of
its scopes is closed exactly if the scan came to some node of the part that asks for each local
variable which the painted nodes of the part use. So every scope is closed if the scan left nothing
out. -/
theorem scope_closed_iff [CurveLibrary] (doc : ArtDocument) (hvalid : doc.Valid)
    (options : CompileOptions) (c : Compiled) (hc : doc.view.compile options = .ok c) :
    ∃ script, c.script doc.view c.outline.renderer = .ok script ∧
      (∀ o : EmitOptions, c.emit doc.view o = .ok (script.text o)) ∧
      (∀ ctx, List.Forall₂ (fun part scope => scope.Closed ctx ↔
          ∀ x, part.Paints c doc.view x →
            ∃ node, part.Scans c doc.view options.maxDepth node ∧ doc.view.Asks node x)
        c.parts script.scopes) ∧
      ((∀ levels, Warning.tooDeep levels ∉ c.warnings) →
        ∀ ctx, ∀ scope ∈ script.scopes, scope.Closed ctx) := by
  have h := hvalid.wellLinked
  obtain ⟨script, hscript, hwritten⟩ := c.exists_script doc.view
  have hfits := Compiled.fits_scopes hwritten
  -- a scope declares what the scan found for its part, and uses what is painted of it
  have hclosed : ∀ ctx part scope, c.Fits doc.view part scope →
      (scope.Closed ctx ↔ ∀ x, part.Paints c doc.view x → part.features.has x = true) := by
    rintro ctx part scope ⟨hlocals, huses⟩
    simp only [Scope.Closed, Scope.declares_iff, hlocals, huses]
  refine ⟨script, hscript, Compiled.emit_of_script hscript, fun ctx => ?_,
    fun hnone ctx scope hscope => ?_⟩
  · rw [List.forall₂_iff_get] at hfits ⊢
    refine ⟨hfits.1, fun i hi hi' => ?_⟩
    rw [hclosed ctx _ _ (hfits.2 i hi hi')]
    simp only [h.has_features_iff hc (List.get_mem _ _)]
  · have hscan := Artwork.scan_warnings_of_compile hc hnone
    obtain ⟨i, rfl⟩ := List.get_of_mem hscope
    rw [List.forall₂_iff_get] at hfits
    obtain ⟨hlength, hfits⟩ := hfits
    have hi : i.1 < c.parts.length := by rw [hlength]; exact i.2
    refine (hclosed ctx _ _ (hfits i.1 hi i.2)).mpr fun x hpaints => ?_
    exact h.has_of_paints hc hscan (List.get_mem _ _) hpaints

/-- With two levels nothing of `fadedChild` is left out, and its scopes are closed. -/
theorem scope_closed_iff_fadedChild :
    fadedChild.Valid ∧ ∃ c script, fadedChild.view.compile { maxDepth := 2 } = .ok c ∧
      c.warnings = [] ∧ c.script fadedChild.view c.outline.renderer = .ok script ∧
      ∀ ctx, ∀ scope ∈ script.scopes, scope.Closed ctx := by
  have hvalid : fadedChild.Valid := by decide +kernel
  have hcompile : (fadedChild.view.compile { maxDepth := 2 }).toOption.any
      (fun c => decide (c.warnings = [])) = true := by decide +kernel
  obtain ⟨c, hc, hnone⟩ := exists_ok_of_any hcompile
  have hnone : c.warnings = [] := of_decide_eq_true hnone
  obtain ⟨script, hscript, -, -, hclosed⟩ :=
    scope_closed_iff fadedChild hvalid { maxDepth := 2 } c hc
  exact ⟨hvalid, c, script, hc, hnone, hscript, hclosed (by simp [hnone])⟩

/-- With one level the child in `fadedChild` is left out of the scan and painted all the same. The
scope uses the opacity and does not declare it. -/
theorem scope_not_closed_fadedChild :
    fadedChild.Valid ∧ ∃ c script, fadedChild.view.compile { maxDepth := 1 } = .ok c ∧
      c.script fadedChild.view c.outline.renderer = .ok script ∧
      ∃ scope ∈ script.scopes, ¬ scope.Closed "ctx" := by
  have hvalid : fadedChild.Valid := by decide +kernel
  have hcompile : (fadedChild.view.compile { maxDepth := 1 }).toOption.any (fun c =>
      (c.script fadedChild.view c.outline.renderer).toOption.any fun script =>
        script.scopes.any fun scope =>
          scope.body.any (·.local? == some .alpha) && !scope.locals.alpha) = true := by
    decide +kernel
  obtain ⟨c, hc, hscript⟩ := exists_ok_of_any hcompile
  obtain ⟨script, hscript, hscopes⟩ := exists_ok_of_any hscript
  obtain ⟨scope, hscope, hopen⟩ := List.any_eq_true.mp hscopes
  rw [Bool.and_eq_true, List.any_eq_true, Bool.not_eq_true'] at hopen
  obtain ⟨⟨stmt, hstmt, huses⟩, hlocals⟩ := hopen
  refine ⟨hvalid, c, script, hc, hscript, scope, hscope, fun hclosed => ?_⟩
  have hdeclares := hclosed .alpha ⟨stmt, hstmt, by simpa using huses⟩
  rw [Scope.declares_iff, Features.has, hlocals] at hdeclares
  cases hdeclares

end ArtDocument

end ArtCanvas
