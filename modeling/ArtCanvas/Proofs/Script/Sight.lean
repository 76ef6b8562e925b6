import ArtCanvas.Proofs.Compile.Sight
import ArtCanvas.Proofs.Script.Scopes

/-!
# Hidden content never reaches the output

The renderer goes around the art once more, with its own checks of what is hidden. It paints nothing
that is out of sight either, so two documents that differ out of sight only are compiled and written
alike.

* `Artwork.SameSight.paintFrom_eq`: the same statements are made of a list of siblings.
* `Artwork.SameSight.emit_eq`: the same text is written.
* `ArtDocument.hidden_content_unseen`: the whole way from documents to text.
-/

namespace ArtCanvas

namespace Artwork

variable {art art' : Artwork}

/-- What is painted below a node that is in sight is in sight. -/
theorem InSight.sightFrom_paintArt {node : Nat} (hsight : art.InSight node)
    (hvisible : art.isHidden node = false) : art.SightFrom (art.paintArt node) := by
  unfold paintArt
  cases hkind : art.kind node with
  | plain => exact hsight.sightFrom_child hvisible
  | symbol => exact sightFrom_none
  | pluginGroup =>
    intro below hbelow
    obtain ⟨-, group, hgroup, hfirst⟩ := resultArt_eq_some_iff.mp hbelow
    exact hsight.result hvisible hkind hgroup hfirst

namespace SameSight

variable (h : art.SameSight art')

include h

section Node

variable {node : Nat} (hsight : art.InSight node) (hvisible : art.isHidden node = false)

include hsight hvisible

/-- The same art is painted for a node. -/
theorem paintArt_eq : art.paintArt node = art'.paintArt node := by
  have hnode := h.sameNode node hsight hvisible
  unfold paintArt resultArt
  rw [← hnode.kind, ← hnode.firstChild, ← hnode.pluginResult]
  cases hkind : art.kind node with
  | plain | symbol => rfl
  | pluginGroup =>
    cases hgroup : art.pluginResult node with
    | none => rfl
    | some group => exact h.group node group hsight hvisible hkind hgroup

/-- A node in sight is painted alike. -/
theorem paintSelf_eq (o : Outline) (transform : Affine Float) (active : Option Nat) :
    o.paintSelf art transform active node = o.paintSelf art' transform active node := by
  have hnode := h.sameNode node hsight hvisible
  -- the renderer reads nothing of a node but what both documents have in common
  have hchoose : ∀ target, o.choosePaint art transform node target =
      o.choosePaint art' transform node target := by
    intro target
    unfold Outline.choosePaint
    rw [hnode.paint, hnode.solidColor, hnode.bounds, hnode.gradientStops]
  have hsymbol : o.paintSymbol art transform active node =
      o.paintSymbol art' transform active node := by
    unfold Outline.paintSymbol
    rw [hnode.symbolPattern, hnode.bounds]
  have houtline : o.paintOutline art transform node = o.paintOutline art' transform node := by
    unfold Outline.paintOutline Outline.paintFill Outline.paintStroke
    rw [hnode.path, hnode.paint, hchoose, hchoose, hnode.strokeWidth]
  unfold Outline.paintSelf
  rw [hnode.kind, houtline, hsymbol]

end Node

/-- The same statements are made of a node, and of what is below it. -/
theorem paintNode_eq (o : Outline) (transform : Affine Float) (active : Option Nat) (levels : Nat)
    {node : Nat} (hsight : art.InSight node) :
    o.paintNode art transform active levels node =
      o.paintNode art' transform active levels node := by
  -- on the levels, for what is painted below the node
  induction levels generalizing node with
  | zero => rfl
  | succ levels ih =>
    rw [Outline.paintNode_succ, Outline.paintNode_succ, ← h.isHidden node hsight]
    cases hhidden : art.isHidden node with
    | true => rw [if_pos rfl, if_pos rfl]
    | false =>
      have hbelow := hsight.sightFrom_paintArt hhidden
      have hopacity := (h.sameNode node hsight hhidden).opacity
      rw [if_neg Bool.false_ne_true, if_neg Bool.false_ne_true, ← hopacity,
        ← h.paintSelf_eq hsight hhidden,
        ← h.paintArt_eq hsight hhidden, ← h.siblings _ hbelow,
        List.flatMap_congr fun sibling hsibling => ih (hbelow.of_mem_siblings hsibling)]

/-- So are all nodes from one in sight on. -/
theorem paintFrom_eq (c : Compiled) (transform : Affine Float) (active : Option Nat)
    {first : Option Nat} (hfirst : art.SightFrom first) :
    c.paintFrom art transform active first = c.paintFrom art' transform active first := by
  unfold Compiled.paintFrom
  rw [← h.siblings _ hfirst]
  exact List.flatMap_congr fun sibling hsibling =>
    h.paintNode_eq _ transform active _ (hfirst.of_mem_siblings hsibling)

section Compiled

variable [CurveLibrary] {options : CompileOptions} {c : Compiled} (hc : art.compile options = .ok c)

include hc

omit h in
/-- The art of a pattern in use is in sight. -/
theorem sightFrom_content {p : Pattern} (hp : p ∈ c.patterns.patterns) :
    art.SightFrom p.content := by
  rw [(pattern_of_compile hc hp).1]
  exact sightFrom_patternContent p.handle

omit h in
/-- The art of a compiled layer is in sight. -/
theorem sightFrom_layer (i : Nat) : art.SightFrom (c.layers[i]?.bind Layer.art) := by
  rw [art_of_compile hc]
  cases hl : (art.scan options.maxDepth).1[i]? with
  | none => exact sightFrom_none
  | some l =>
    obtain ⟨layer, hlayer, hart, -⟩ := layer_of_scan hl
    rw [Option.bind_some, hart]
    exact sightFrom_firstArt hlayer

/-- Both pieces of art have the same script. -/
theorem outlineScript_eq : c.outlineScript art = c.outlineScript art' := by
  have hsymbols : c.patterns.symbols.map (c.outlineSymbol art) =
      c.patterns.symbols.map (c.outlineSymbol art') := by
    refine List.map_congr_left fun p hp => ?_
    unfold Compiled.outlineSymbol
    rw [h.paintFrom_eq _ _ _ (sightFrom_content hc (List.mem_of_mem_filter hp))]
  have htiles : c.tileEntries.map (c.outlineTile art) =
      c.tileEntries.map (c.outlineTile art') := by
    refine List.map_congr_left fun entry hentry => ?_
    obtain ⟨p, hp, canvas, -, rfl⟩ : ∃ p ∈ c.patterns.tiles, ∃ canvas, p.canvas = some canvas ∧
        (p, canvas) = entry := by simpa [Compiled.tileEntries] using hentry
    unfold Compiled.outlineTile
    rw [h.paintFrom_eq _ _ _ (sightFrom_content hc (List.mem_of_mem_filter hp))]
  have hobject : ∀ f, c.outlineObject art f = c.outlineObject art' f := by
    intro f
    have hbodies : ∀ i ∈ f.layers, c.paintFrom art (f.placement.localTransform c.bounds) none
        (c.layers[i]?.bind Layer.art) = c.paintFrom art' (f.placement.localTransform c.bounds) none
          (c.layers[i]?.bind Layer.art) := fun i _ => h.paintFrom_eq _ _ _ (sightFrom_layer hc i)
    unfold Compiled.outlineObject Compiled.outlineLayers
    rw [List.flatMap_congr hbodies]
  -- clocks, paths, frames and the page are made of the compiled document alone
  unfold Compiled.outlineScript
  simp only [hsymbols, htiles, hobject]

/-- The same text is written for art with the same in sight. -/
theorem emit_eq (o : EmitOptions) : c.emit art o = c.emit art' o := by
  rw [Compiled.emit_of_script (c.script_outline art),
    Compiled.emit_of_script (c.script_outline art'),
    h.outlineScript_eq hc]

end Compiled

end SameSight

end Artwork

namespace ArtDocument

/-- Hidden content never reaches the output. Two documents that pass the check and differ out of
sight only are compiled to the same document under all options, or fail with the same error, and the
same text is written for both under all options. -/
theorem hidden_content_unseen [CurveLibrary] (doc doc' : ArtDocument) (hvalid : doc.Valid)
    (hvalid' : doc'.Valid) (hsame : doc.SameInSight doc') (options : CompileOptions) :
    doc.view.compile options = doc'.view.compile options ∧
      ∀ c, doc.view.compile options = .ok c → ∀ o : EmitOptions,
        ∃ text, c.emit doc.view o = .ok text ∧ c.emit doc'.view o = .ok text := by
  have h := sameSight hvalid.wellLinked hvalid'.wellLinked hsame
  refine ⟨h.compile_eq options, fun c hc o => ?_⟩
  have htext := Compiled.emit_of_script (c.script_outline doc.view) o
  exact ⟨_, htext, (h.emit_eq hc o).symm.trans htext⟩

/-- A visible node with a hidden one beside it. -/
def frontNode : ArtNode := { bounds := unitBox, nextSibling := some 1 }

/-- A visible layer with two nodes, the second one hidden and with a child, and an invisible layer
with a node. -/
def coveredArt : ArtDocument where
  layers := #[{ name := "art", art := some 0 },
    { name := "notes", visible := false, art := some 3 }]
  nodes := #[
    frontNode,
    { bounds := unitBox, hidden := true, firstChild := some 2 },
    { bounds := unitBox, opacity := 0.5 },
    { bounds := unitBox }]

/-- The same in sight as `coveredArt`, with another hidden node, no child below it, and another
invisible layer. -/
def recoveredArt : ArtDocument where
  layers := #[{ name := "art", art := some 0 },
    { name := "path(type:animation)", visible := false }]
  nodes := #[
    frontNode,
    { bounds := unitBox, hidden := true, opacity := 0.5, path := some "M0 0 L1 0" }]

/-- The two pieces of art differ in what nobody sees. -/
theorem sameInSight_coveredArt [CurveLibrary] : coveredArt.SameInSight recoveredArt where
  layerCount := rfl
  layers i layer layer' hlayer hlayer' := by
    match i with
    | 0 =>
      cases hlayer
      cases hlayer'
      exact ⟨rfl, fun _ => rfl⟩
    | 1 =>
      cases hlayer
      cases hlayer'
      exact ⟨rfl, nofun⟩
    | i + 2 => cases hlayer
  patterns := rfl
  nodes i hout hout' := by
    have hmasks : coveredArt.view.Masks 1 := by
      refine ⟨rfl, ?_⟩
      rintro (⟨_, hcontent⟩ | ⟨group, hkind, -⟩)
      · cases hcontent
      · match group with
        | 0 | 1 | 2 | 3 => cases hkind
        | group + 4 => cases hkind
    have hmasks' : recoveredArt.view.Masks 1 := by
      refine ⟨rfl, ?_⟩
      rintro (⟨_, hcontent⟩ | ⟨group, hkind, -⟩)
      · cases hcontent
      · match group with
        | 0 | 1 => cases hkind
        | group + 2 => cases hkind
    -- the first node is the same, the second one masks what is behind it, and no other is in sight
    match i with
    | 0 =>
      have hfront : coveredArt.nodes[0]? = some frontNode := rfl
      have hfront' : recoveredArt.nodes[0]? = some frontNode := rfl
      exact Or.inl (hfront.trans hfront'.symm)
    | 1 =>
      have hnext : coveredArt.view.nextSibling 1 = none := rfl
      have hnext' : recoveredArt.view.nextSibling 1 = none := rfl
      exact Or.inr ⟨hmasks, hmasks', hnext.trans hnext'.symm⟩
    | 2 => exact absurd (@Artwork.OutOfSight.masked _ .child _ _ hmasks nofun rfl) hout
    | 3 => exact absurd (@Artwork.OutOfSight.layer _ 1 _ rfl rfl) hout
    | i + 4 =>
      have hnone : coveredArt.nodes[i + 4]? = none := rfl
      have hnone' : recoveredArt.nodes[i + 4]? = none := rfl
      exact Or.inl (hnone.trans hnone'.symm)

/-- The two documents are compiled to the same document, and the same text is written for both. -/
theorem hidden_content_unseen_coveredArt :
    coveredArt.Valid ∧ recoveredArt.Valid ∧ coveredArt.SameInSight recoveredArt ∧
      ∃ c text, coveredArt.view.compile {} = .ok c ∧ recoveredArt.view.compile {} = .ok c ∧
        c.emit coveredArt.view {} = .ok text ∧ c.emit recoveredArt.view {} = .ok text := by
  have hvalid : coveredArt.Valid := by decide +kernel
  have hvalid' : recoveredArt.Valid := by decide +kernel
  have hcompile : (coveredArt.view.compile {}).toOption.any (fun _ => true) = true := by
    decide +kernel
  obtain ⟨c, hc, -⟩ := exists_ok_of_any hcompile
  obtain ⟨hsame, htexts⟩ :=
    hidden_content_unseen coveredArt recoveredArt hvalid hvalid' sameInSight_coveredArt {}
  obtain ⟨text, htext, htext'⟩ := htexts c hc {}
  exact ⟨hvalid, hvalid', sameInSight_coveredArt, c, text, hc, hsame.symm.trans hc, htext, htext'⟩

end ArtDocument

end ArtCanvas
