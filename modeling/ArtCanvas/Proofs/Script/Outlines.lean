import ArtCanvas.Proofs.Scan.Visits
import ArtCanvas.Proofs.Script.Scopes

/-!
# Whether painted outlines were scanned

A script writes the outlines of the nodes that the renderer comes to, and the boxes and features of
a compiled document are those of the nodes that the scan came to. A node whose outline is written
has a depth, counted from the page as the scan counts it, and this depth alone decides whether the
node was scanned.

* `Artwork.Lies`: where a node lies in art, however deep that is.
* `Part.StartsAt`, `Part.StandsAt`: the depths at which the art of a part starts and at which its
  nodes stand.
* `Outline.eq_of_outline_mem_ownStmts`: a node writes no outline but its own.
* `ArtDocument.outline_visited_iff`: an outline that is written was scanned exactly if the depth of
  its node is within the limit of the scan.
-/

namespace ArtCanvas

/-- `node` lies at `depth` in the art that starts at `first`, at depth `start`. -/
def Artwork.Lies (art : Artwork) (first : Option Nat) (start node depth : Nat) : Prop :=
  ∃ limit, art.Passes limit first start node depth

namespace Part

variable (c : Compiled) (art : Artwork) (maxDepth : Nat)

/-- The art of the part starts at `first`, at depth `start` as a scan with the limit `maxDepth`
counts: a layer at depth 1, and a pattern one level below the node that uses it first. -/
def StartsAt : Part → Option Nat → Nat → Prop
  | .pattern p, first, start => first = p.content ∧
      ∃ use ∈ (art.scan maxDepth).2.firstUses, use.handle = p.handle ∧
        ∃ outer, art.VisitedAt maxDepth (art.scan maxDepth).2.firstUses use.node outer ∧
          start = outer + 1
  | .layers f, first, start => start = 1 ∧ ∃ i ∈ f.layers, first = c.layers[i]?.bind Layer.art

/-- `node` stands in the art of the part at `depth`, whether the scan comes that deep or not. -/
def StandsAt (part : Part) (node depth : Nat) : Prop :=
  ∃ first start, part.StartsAt c art maxDepth first start ∧ art.Lies first start node depth

variable {c art maxDepth}

/-- The scan comes to what it shows of the art of a part. -/
theorem scans_iff {part : Part} {node : Nat} :
    part.Scans c art maxDepth node ↔
      ∃ first start, part.StartsAt c art maxDepth first start ∧
        art.Shows maxDepth first start node := by
  cases part with
  | pattern p =>
    constructor
    · rintro ⟨use, huse, hhandle, outer, houter, hshows⟩
      exact ⟨_, _, ⟨rfl, use, huse, hhandle, outer, houter, rfl⟩, hshows⟩
    · rintro ⟨_, _, ⟨rfl, use, huse, hhandle, outer, houter, rfl⟩, hshows⟩
      exact ⟨use, huse, hhandle, outer, houter, hshows⟩
  | layers f =>
    constructor
    · rintro ⟨i, hi, hshows⟩
      exact ⟨_, _, ⟨rfl, i, hi, rfl⟩, hshows⟩
    · rintro ⟨_, _, ⟨rfl, i, hi, rfl⟩, hshows⟩
      exact ⟨i, hi, hshows⟩

end Part

/-- The node whose outline a statement makes the current one. -/
def Stmt.outlined? : Stmt → Option Nat
  | .outline node _ => some node
  | _ => none

theorem Stmt.exists_outline_mem_iff {node : Nat} {body : List Stmt} :
    (∃ path, .outline node path ∈ body) ↔ body.any (·.outlined? == some node) = true := by
  rw [List.any_eq_true]
  constructor
  · rintro ⟨path, hmem⟩
    exact ⟨_, hmem, beq_self_eq_true _⟩
  · rintro ⟨stmt, hmem, houtlined⟩
    cases stmt with
    | outline n path =>
      obtain rfl : n = node := by simpa [outlined?] using houtlined
      exact ⟨path, hmem⟩
    | _ => simp [outlined?] at houtlined

namespace Outline

variable {o : Outline} {art : Artwork} {transform : Affine Float} {active : Option Nat}
  {node n : Nat} {path : Path}

theorem eq_of_outline_mem_paintOutline (h : .outline node path ∈ o.paintOutline art transform n) :
    node = n := by
  rcases cases_of_mem_paintOutline h with ⟨path', heq⟩ | hpaint | hfill | hstroke | ⟨width, heq⟩
  · cases heq
    rfl
  · cases hpaint
  · cases hfill
  · cases hstroke
  · cases heq

/-- A symbol is painted without an outline of its own. -/
theorem outline_not_mem_paintSymbol :
    .outline node path ∉ o.paintSymbol art transform active n := by
  intro hmem
  cases placesSymbol_of_mem hmem

/-- A node writes no outline but its own. -/
theorem eq_of_outline_mem_ownStmts
    (h : .outline node path ∈ o.ownStmts art transform active n) : node = n := by
  rcases cases_of_mem_ownStmts h with houtline | hsymbol | ⟨opacity, heq⟩ | heq
  · exact eq_of_outline_mem_paintOutline houtline
  · exact absurd hsymbol outline_not_mem_paintSymbol
  · cases heq
  · cases heq

end Outline

namespace ArtDocument

variable {doc : ArtDocument}

/-- From a depth on and up to a limit, art shows the nodes that lie within the limit. -/
theorem visits_iff_of_lies [CurveLibrary] {first : Option Nat} {maxDepth start node depth : Nat}
    (hlies : doc.view.Lies first start node depth) (hvisible : doc.view.isHidden node = false) :
    doc.view.Visits maxDepth first start node depth ↔ depth ≤ maxDepth := by
  constructor
  · exact fun hvisits => hvisits.1.depth_le.2
  · intro hle
    obtain ⟨limit, hpass⟩ := hlies
    have hstart := hpass.depth_le.1
    have hmoved := hpass.relocate start maxDepth (by omega)
    rw [show start + (depth - start) = depth by omega] at hmoved
    exact ⟨hmoved, hvisible⟩

namespace WellLinked

variable [CurveLibrary] (h : doc.WellLinked)

include h

/-- Where a node lies is counted along the walk to it. -/
theorem depth_of_lies {root root' : Root} {hops : List Hop} {start node depth : Nat}
    (hw : doc.view.walk root hops = some node)
    (hlies : doc.view.Lies (doc.view.rootNode root') start node depth) :
    root' = root ∧ depth = start + hops.count .child := by
  obtain ⟨limit, hpass⟩ := hlies
  obtain ⟨hops', hw', hdepth⟩ := walk_of_passes root' hpass
  obtain ⟨hroot, rfl⟩ := h.walk_unique hw' hw
  exact ⟨hroot, hdepth⟩

/-- The renderer comes to visible nodes, and they lie in the art. -/
theorem lies_of_mem_paintTour {levels node : Nat} (root : Root) (start : Nat)
    (hmem : node ∈ doc.view.paintTour levels (doc.view.rootNode root)) :
    doc.view.isHidden node = false ∧
      ∃ depth, doc.view.Lies (doc.view.rootNode root) start node depth := by
  have htour := Artwork.paintTour_subset_tour (Or.inl le_rfl) hmem
  rw [show levels = levels + 1 - 1 by omega, h.mem_tour_iff root le_rfl] at htour
  obtain ⟨depth, hpass, hvisible⟩ := htour
  exact ⟨hvisible, _, _, hpass.relocate start _ le_rfl⟩

variable {options : CompileOptions} {c : Compiled} {part : Part} {first : Option Nat} {start : Nat}

/-- The art of a part starts at one depth. -/
theorem startsAt_unique {maxDepth start' : Nat} {first' : Option Nat}
    (hstarts : part.StartsAt c doc.view maxDepth first start)
    (hstarts' : part.StartsAt c doc.view maxDepth first' start') : start = start' := by
  have hdistinct := doc.view.nodup_firstUses maxDepth
  cases part with
  | pattern p =>
    obtain ⟨-, use, huse, hhandle, outer, houter, rfl⟩ := hstarts
    obtain ⟨-, use', huse', hhandle', outer', houter', rfl⟩ := hstarts'
    obtain rfl := List.inj_on_of_nodup_map hdistinct huse huse' (hhandle.trans hhandle'.symm)
    rw [h.visitedAt_unique hdistinct houter houter']
  | layers f => rw [hstarts.1, hstarts'.1]

variable (hc : doc.view.compile options = .ok c) (hpart : part ∈ c.parts)

include hc hpart

/-- The art of a part starts somewhere, wherever the renderer starts to paint it. -/
theorem exists_startsAt (hfirst : first ∈ part.firsts c) :
    ∃ start, part.StartsAt c doc.view options.maxDepth first start := by
  rcases Artwork.cases_of_mem_parts hpart with ⟨p, hp, rfl⟩ | ⟨f, -, rfl⟩
  · obtain ⟨-, q, hq, hhandle, -⟩ := Artwork.pattern_of_compile hc hp
    obtain ⟨use, huse, husehandle, -, depth, hdepth, -⟩ := h.pattern_records options.maxDepth hq
    exact ⟨depth + 1, List.mem_singleton.mp hfirst, use, huse, husehandle.trans hhandle, depth,
      (hdepth depth).mpr rfl, rfl⟩
  · obtain ⟨i, hi, rfl⟩ := List.mem_map.mp hfirst
    exact ⟨1, rfl, i, hi, rfl⟩

/-- What starts somewhere in a part is the art of a layer or of a pattern, and all that the scan
visits of it, it visits on the way around from there. -/
theorem root_of_startsAt (hstarts : part.StartsAt c doc.view options.maxDepth first start) :
    first = none ∨ ∃ root, first = doc.view.rootNode root ∧
      ∀ hops node depth, doc.view.walk root hops = some node →
        (doc.view.VisitedAt options.maxDepth (doc.view.scan options.maxDepth).2.firstUses node
            depth ↔
          doc.view.Visits options.maxDepth first start node depth) := by
  have hdistinct := doc.view.nodup_firstUses options.maxDepth
  -- in both cases the walk to the node says where it is visited
  rcases Artwork.cases_of_mem_parts hpart with ⟨p, hp, rfl⟩ | ⟨f, -, rfl⟩
  · obtain ⟨rfl, use, huse, hhandle, outer, houter, rfl⟩ := hstarts
    obtain ⟨hcontent, -⟩ := Artwork.pattern_of_compile hc hp
    refine Or.inr ⟨.pattern p.handle, hcontent, fun hops node depth hw => ?_⟩
    rw [h.visitedAt_iff_of_walk_pattern hw, hcontent]
    constructor
    · rintro ⟨use', huse', hhandle', outer', houter', hvisits⟩
      obtain rfl := List.inj_on_of_nodup_map hdistinct huse huse' (hhandle.trans hhandle'.symm)
      obtain rfl := h.visitedAt_unique hdistinct houter houter'
      exact hvisits
    · exact fun hvisits => ⟨use, huse, hhandle, outer, houter, hvisits⟩
  · obtain ⟨rfl, i, -, rfl⟩ := hstarts
    rw [Artwork.art_of_compile hc]
    cases hl : (doc.view.scan options.maxDepth).1[i]? with
    | none => exact Or.inl rfl
    | some l =>
      obtain ⟨layer, hlayer, hart, -⟩ := Artwork.layer_of_scan hl
      refine Or.inr ⟨.layer layer, hart, fun hops node depth hw => ?_⟩
      rw [h.visitedAt_iff_of_walk_layer hw, Option.bind_some, hart]
      exact ⟨And.right, fun hvisits => ⟨hlayer, hvisits⟩⟩

/-- A node that the renderer comes to in a part stands there at one depth, and the scan comes to it
exactly if its limit is no smaller. -/
theorem exists_depth_of_painted (hfirst : first ∈ part.firsts c) {levels node : Nat}
    (hmem : node ∈ doc.view.paintTour levels first) :
    ∃ depth, (∀ d, part.StandsAt c doc.view options.maxDepth node d ↔ d = depth) ∧
      (node ∈ (doc.view.scan options.maxDepth).2.visited ↔ depth ≤ options.maxDepth) ∧
      (part.Scans c doc.view options.maxDepth node ↔ depth ≤ options.maxDepth) := by
  obtain ⟨start, hstarts⟩ := h.exists_startsAt hc hpart hfirst
  rcases h.root_of_startsAt hc hpart hstarts with rfl | ⟨root, rfl, hvisited⟩
  · simp at hmem
  · obtain ⟨hvisible, depth, limit, hpass⟩ := h.lies_of_mem_paintTour root start hmem
    have hlies : doc.view.Lies (doc.view.rootNode root) start node depth := ⟨limit, hpass⟩
    obtain ⟨hops, hw, hdepth⟩ := walk_of_passes root hpass
    -- wherever else the art of the part starts, the node lies at the same depth
    have hunique : ∀ first' start' d, part.StartsAt c doc.view options.maxDepth first' start' →
        doc.view.Lies first' start' node d → first' = doc.view.rootNode root ∧ start' = start ∧
          d = depth := by
      rintro first' start' d hstarts' ⟨limit', hpass'⟩
      obtain rfl := h.startsAt_unique hstarts hstarts'
      rcases h.root_of_startsAt hc hpart hstarts' with rfl | ⟨root', rfl, -⟩
      · exact absurd ⟨d, hpass', hvisible⟩ Artwork.not_shows_none
      · obtain ⟨rfl, hd⟩ := h.depth_of_lies hw ⟨limit', hpass'⟩
        exact ⟨rfl, rfl, hd.trans hdepth.symm⟩
    refine ⟨depth, fun d => ⟨?_, ?_⟩, ?_, ?_⟩
    · rintro ⟨first', start', hstarts', hlies'⟩
      exact (hunique first' start' d hstarts' hlies').2.2
    · rintro rfl
      exact ⟨_, _, hstarts, hlies⟩
    · rw [h.mem_visited_iff, ← visits_iff_of_lies hlies hvisible]
      constructor
      · rintro ⟨d, hd⟩
        have hvisits := (hvisited hops node d hw).mp hd
        obtain ⟨-, -, rfl⟩ := hunique _ _ d hstarts ⟨_, hvisits.1⟩
        exact hvisits
      · exact fun hvisits => ⟨depth, (hvisited hops node depth hw).mpr hvisits⟩
    · rw [Part.scans_iff, ← visits_iff_of_lies hlies hvisible]
      constructor
      · rintro ⟨first', start', hstarts', d, hvisits⟩
        obtain ⟨rfl, rfl, rfl⟩ := hunique first' start' d hstarts' ⟨_, hvisits.1⟩
        exact hvisits
      · exact fun hvisits => ⟨_, _, hstarts, depth, hvisits⟩

end WellLinked

/-- A layer with a node and its child, which has an outline. -/
def outlinedChild : ArtDocument where
  layers := #[{ name := "a", art := some 0 }]
  nodes := #[
    { bounds := unitBox, firstChild := some 1 },
    { bounds := unitBox, fill := .solid ⟨255, 0, 0, 255⟩, path := some "M0 0 L1 0" }]

/-- For every document that passes the check and can be compiled, a script is written, and each node
whose outline is in one of its scopes stands in the art of that part at one depth. The scan visited
the node, and counted it for the part, exactly if this depth is within the limit of the scan. So all
outlines are those of visited nodes if the scan left nothing out. -/
theorem outline_visited_iff [CurveLibrary] (doc : ArtDocument) (hvalid : doc.Valid)
    (options : CompileOptions) (c : Compiled) (hc : doc.view.compile options = .ok c) :
    ∃ script, c.script doc.view c.outline.renderer = .ok script ∧
      (∀ o : EmitOptions, c.emit doc.view o = .ok (script.text o)) ∧
      List.Forall₂ (fun part scope => ∀ node path, .outline node path ∈ scope.body →
          ∃ depth, (∀ d, part.StandsAt c doc.view options.maxDepth node d ↔ d = depth) ∧
            (node ∈ (doc.view.scan options.maxDepth).2.visited ↔ depth ≤ options.maxDepth) ∧
            (part.Scans c doc.view options.maxDepth node ↔ depth ≤ options.maxDepth))
        c.parts script.scopes ∧
      ((∀ levels, Warning.tooDeep levels ∉ c.warnings) →
        ∀ scope ∈ script.scopes, ∀ node path, .outline node path ∈ scope.body →
          node ∈ (doc.view.scan options.maxDepth).2.visited) := by
  have h := hvalid.wellLinked
  obtain ⟨script, hscript, hwritten⟩ := c.exists_script doc.view
  obtain ⟨hlength, hbodies⟩ := List.forall₂_iff_get.mp (Compiled.paintsBody_scopes hwritten)
  -- an outline in a scope is that of a node that the renderer comes to in the part
  have hpainted : ∀ i hi hi' node path,
      .outline node path ∈ (script.scopes.get ⟨i, hi'⟩).body →
        ∃ first ∈ (c.parts.get ⟨i, hi⟩).firsts c,
          node ∈ doc.view.paintTour c.outline.maxDepth first := by
    intro i hi hi' node path hmem
    obtain ⟨transform, active, hbody⟩ := hbodies i hi hi'
    rw [hbody] at hmem
    obtain ⟨first, hfirst, hmem⟩ := List.mem_flatMap.mp hmem
    obtain ⟨n, hn, hstmt⟩ := Outline.mem_paintSiblings.mp hmem
    rw [Outline.eq_of_outline_mem_ownStmts hstmt]
    exact ⟨first, hfirst, hn⟩
  refine ⟨script, hscript, Compiled.emit_of_script hscript,
    List.forall₂_iff_get.mpr ⟨hlength, fun i hi hi' node path hmem => ?_⟩,
    fun hnone scope hscope node path hmem => ?_⟩
  · obtain ⟨first, hfirst, hnode⟩ := hpainted i hi hi' node path hmem
    exact h.exists_depth_of_painted hc (List.get_mem _ _) hfirst hnode
  · obtain ⟨i, rfl⟩ := List.get_of_mem hscope
    have hi : i.1 < c.parts.length := by rw [hlength]; exact i.2
    obtain ⟨first, hfirst, hnode⟩ := hpainted i.1 hi i.2 node path hmem
    obtain ⟨depth, -, hvisited, hscans⟩ :=
      h.exists_depth_of_painted hc (List.get_mem _ _) hfirst hnode
    have hscan := Artwork.scan_warnings_of_compile hc hnone
    exact hvisited.mpr (hscans.mp (h.scans_of_painted hc hscan (List.get_mem _ _) hfirst hnode))

/-- What a test on a compiled document says of its warnings and of the outline of a node. -/
theorem exists_outline_of_any [CurveLibrary] (art : Artwork) (options : CompileOptions)
    (ws : List Warning) (node : Nat)
    (h : (art.compile options).toOption.any (fun c => decide (c.warnings = ws) &&
      (c.script art c.outline.renderer).toOption.any fun script =>
        script.scopes.any fun scope => scope.body.any (·.outlined? == some node)) = true) :
    ∃ c script, art.compile options = .ok c ∧ c.warnings = ws ∧
      c.script art c.outline.renderer = .ok script ∧
      ∃ scope ∈ script.scopes, ∃ path, .outline node path ∈ scope.body := by
  obtain ⟨c, hc, htests⟩ := exists_ok_of_any h
  rw [Bool.and_eq_true, decide_eq_true_iff] at htests
  obtain ⟨hwarnings, hscripts⟩ := htests
  obtain ⟨script, hscript, hscopes⟩ := exists_ok_of_any hscripts
  obtain ⟨scope, hscope, houtlined⟩ := List.any_eq_true.mp hscopes
  exact ⟨c, script, hc, hwarnings, hscript, scope, hscope,
    Stmt.exists_outline_mem_iff.mpr houtlined⟩

/-- With two levels nothing of `outlinedChild` is left out: its outline is written, and it is that
of a visited node. -/
theorem outline_visited_iff_outlinedChild :
    outlinedChild.Valid ∧ ∃ c script, outlinedChild.view.compile { maxDepth := 2 } = .ok c ∧
      c.warnings = [] ∧ c.script outlinedChild.view c.outline.renderer = .ok script ∧
      ∃ scope ∈ script.scopes, ∃ path, .outline 1 path ∈ scope.body ∧
        1 ∈ (outlinedChild.view.scan 2).2.visited := by
  have hvalid : outlinedChild.Valid := by decide +kernel
  obtain ⟨c, script, hc, hnone, hscript, scope, hscope, path, hmem⟩ :=
    exists_outline_of_any outlinedChild.view { maxDepth := 2 } [] 1 (by decide +kernel)
  obtain ⟨script', hscript', -, -, hvisited⟩ :=
    outline_visited_iff outlinedChild hvalid { maxDepth := 2 } c hc
  obtain rfl := Except.ok.inj (hscript.symm.trans hscript')
  exact ⟨hvalid, c, script, hc, hnone, hscript, scope, hscope, path, hmem,
    hvisited (by simp [hnone]) scope hscope 1 path hmem⟩

/-- With one level the child in `outlinedChild` is left out of the scan, with a warning, and its
outline is written all the same. -/
theorem outline_not_visited_outlinedChild :
    outlinedChild.Valid ∧ ∃ c script, outlinedChild.view.compile { maxDepth := 1 } = .ok c ∧
      c.warnings = [.tooDeep 1] ∧ c.script outlinedChild.view c.outline.renderer = .ok script ∧
      ∃ scope ∈ script.scopes, ∃ path, .outline 1 path ∈ scope.body ∧
        1 ∉ (outlinedChild.view.scan 1).2.visited := by
  obtain ⟨c, script, hc, hwarnings, hscript, scope, hscope, path, hmem⟩ :=
    exists_outline_of_any outlinedChild.view { maxDepth := 1 } [.tooDeep 1] 1 (by decide +kernel)
  exact ⟨by decide +kernel, c, script, hc, hwarnings, hscript, scope, hscope, path, hmem,
    by decide +kernel⟩

end ArtDocument

end ArtCanvas
