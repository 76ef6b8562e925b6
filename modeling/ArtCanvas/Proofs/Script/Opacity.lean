import ArtCanvas.Decimal.Reading
import ArtCanvas.Proofs.Script.Scopes

/-!
# What painting a node does to the opacity

A scope keeps the opacity that it starts with under the name `alpha`. The statements of a node that
is not fully visible set a part of it, and afterwards they go back to `alpha` itself, whatever the
opacity was before the node.

* `OpacityState`: the opacity of a drawing context, with what is kept for later.
* `Stmt.fadeAll`: what statements do to it.
* `Outline.fadeAll_paintNode`, `Outline.fadeAll_siblings`: what the statements of a node and of a
  list of siblings do to it.
* `Compiled.opacity_kept_iff`: painting a scope leaves the opacity as it was, and painting a node
  does so exactly if nothing was faded before it, or nothing in it is.
-/

namespace ArtCanvas

/-- The opacity of a drawing context. -/
structure OpacityState where
  /-- What is painted with now. -/
  current : Float
  /-- What was kept, the last one first. -/
  kept : List Float

/-- What the statements of a scope meet. -/
structure ScopeRun where
  /-- The opacity that the scope starts with. -/
  alpha : Float
  /-- What a function that paints a symbol does to the opacity. -/
  call : String → Float → Float

/-- The opacity is set to `alpha`, if at all. -/
def OpacityState.resetIf (alpha : Float) (reset : Bool) (s : OpacityState) : OpacityState :=
  if reset then { s with current := alpha } else s

namespace OpacityState

variable {alpha : Float} {s : OpacityState}

@[simp]
theorem resetIf_false : s.resetIf alpha false = s := rfl

/-- Two resets are one, if either is made. -/
theorem resetIf_resetIf (b b' : Bool) :
    (s.resetIf alpha b).resetIf alpha b' = s.resetIf alpha (b || b') := by
  cases b <;> cases b' <;> rfl

/-- A reset shows unless the opacity was right already. -/
theorem resetIf_eq_self_iff {b : Bool} :
    s.resetIf alpha b = s ↔ s.current = alpha ∨ b = false := by
  cases b with
  | false => simp
  | true =>
    obtain ⟨current, kept⟩ := s
    simp [resetIf, eq_comm]

end OpacityState

namespace Stmt

/-- The number that is read where a factor is written. -/
def writtenFactor (factor : Float) : Float :=
  (Decimal.readFinite? (Decimal.coordinate factor)).getD factor

/-- What a statement does to the opacity. -/
def fade (run : ScopeRun) (s : OpacityState) : Stmt → OpacityState
  | .setAlpha factor => { s with current := run.alpha * writtenFactor factor }
  | .resetAlpha => { s with current := run.alpha }
  | .save => { s with kept := s.current :: s.kept }
  | .restore =>
    match s.kept with
    | [] => s
    | current :: kept => { current, kept }
  | .callSymbol function => { s with current := run.call function s.current }
  | _ => s

/-- What statements do to the opacity, one after the other. -/
def fadeAll (run : ScopeRun) (body : List Stmt) (s : OpacityState) : OpacityState :=
  body.foldl (fade run) s

variable {run : ScopeRun} {s : OpacityState}

@[simp]
theorem fadeAll_nil : fadeAll run [] s = s := rfl

/-- The first statement is carried out first. -/
@[simp]
theorem fadeAll_cons (stmt : Stmt) (body : List Stmt) :
    fadeAll run (stmt :: body) s = fadeAll run body (fade run s stmt) := rfl

/-- Two bodies are carried out one after the other. -/
@[simp]
theorem fadeAll_append (body body' : List Stmt) :
    fadeAll run (body ++ body') s = fadeAll run body' (fadeAll run body s) := List.foldl_append

/-- A statement for an outline leaves the opacity alone. -/
theorem fade_of_paintsOutline {stmt : Stmt} (h : stmt.paintsOutline = true) (s : OpacityState) :
    fade run s stmt = s := by
  cases stmt <;> first | rfl | cases h

end Stmt

namespace Artwork

variable (art : Artwork)

/-- Something is not fully visible among what is painted for a node. -/
def fades (levels node : Nat) : Bool :=
  (art.paintTourNode levels node).any fun n => art.opacity n != 1.0

variable {art}

/-- What is not fully visible is the node itself, or it is painted below the node. -/
theorem fades_succ {node : Nat} (levels : Nat) (hvisible : art.isHidden node = false) :
    art.fades (levels + 1) node = (art.opacity node != 1.0 ||
      (art.siblings (art.paintArt node)).any (art.fades levels)) := by
  rw [fades, paintTourNode, if_neg (by simp [hvisible]), List.any_cons, paintTour_eq_flatMap,
    List.any_flatMap]
  rfl

end Artwork

namespace Outline

variable {o : Outline} {art : Artwork} {transform : Affine Float} {active : Option Nat}
  {run : ScopeRun} {s : OpacityState}

/-- Painting an outline leaves the opacity alone. -/
theorem fadeAll_paintOutline {node : Nat} :
    Stmt.fadeAll run (o.paintOutline art transform node) s = s :=
  foldl_paintOutline (fun _ => Stmt.fade_of_paintsOutline) node s

/-- A symbol is painted between keeping the opacity and going back to it. -/
theorem fadeAll_paintSymbol {node : Nat} :
    Stmt.fadeAll run (o.paintSymbol art transform active node) s = s := by
  rcases o.paintSymbol_cases art transform active node with
    heq | heq | ⟨corner, scale, function, rfl | ⟨x, y, rfl⟩, heq⟩ <;>
    rw [heq] <;> rfl

/-- What a node is itself leaves the opacity alone, whatever is painted for it. -/
theorem fadeAll_paintSelf {node : Nat} :
    Stmt.fadeAll run (o.paintSelf art transform active node) s = s := by
  unfold paintSelf
  cases art.kind node with
  | plain => exact fadeAll_paintOutline
  | symbol => exact fadeAll_paintSymbol
  | pluginGroup => rfl

/-- After a list of nodes the opacity is that of the scope, if painting any of them makes it so. -/
theorem fadeAll_flatMap {paint : Nat → List Stmt} {fades : Nat → Bool}
    (h : ∀ node s, Stmt.fadeAll run (paint node) s = s.resetIf run.alpha (fades node))
    (nodes : List Nat) :
    Stmt.fadeAll run (nodes.flatMap paint) s = s.resetIf run.alpha (nodes.any fades) := by
  induction nodes generalizing s with
  | nil => rfl
  | cons node nodes ih =>
    rw [List.flatMap_cons, Stmt.fadeAll_append, h, ih, OpacityState.resetIf_resetIf,
      List.any_cons]

/-- After a node the opacity is that of the scope, if anything that is painted for the node is not
fully visible, and else it is as it was. -/
theorem fadeAll_paintNode (levels node : Nat) (s : OpacityState) :
    Stmt.fadeAll run (o.paintNode art transform active levels node) s =
      s.resetIf run.alpha (art.fades levels node) := by
  induction levels generalizing node s with
  | zero => rfl
  | succ levels ih =>
    rw [paintNode_succ]
    cases hvisible : art.isHidden node with
    | true => simp [Artwork.fades, Artwork.paintTourNode, hvisible]
    | false =>
      rw [Artwork.fades_succ levels hvisible, if_neg (by simp)]
      have hbody : ∀ s, Stmt.fadeAll run (o.paintSelf art transform active node ++
          (art.siblings (art.paintArt node)).flatMap (o.paintNode art transform active levels)) s =
          s.resetIf run.alpha ((art.siblings (art.paintArt node)).any (art.fades levels)) := by
        intro s
        rw [Stmt.fadeAll_append, fadeAll_paintSelf, fadeAll_flatMap ih]
      unfold withOpacity
      cases hopacity : art.opacity node != 1.0 with
      | false => simpa using hbody s
      | true =>
        -- whatever the body does, the last statement sets the opacity of the scope
        rw [if_pos rfl, List.cons_append, Stmt.fadeAll_cons, Stmt.fadeAll_append, hbody,
          Bool.true_or]
        cases (art.siblings (art.paintArt node)).any (art.fades levels) <;> rfl

/-- After a list of siblings the opacity is that of the scope, if anything in them is not fully
visible, and else it is as it was. -/
theorem fadeAll_siblings (levels : Nat) (nodes : List Nat) (s : OpacityState) :
    Stmt.fadeAll run (nodes.flatMap (o.paintNode art transform active levels)) s =
      s.resetIf run.alpha (nodes.any (art.fades levels)) :=
  fadeAll_flatMap (fun node s => fadeAll_paintNode levels node s) nodes

end Outline

/-- Nothing that is painted for the nodes is less than fully visible. -/
def Artwork.PaintsOpaque (art : Artwork) (levels : Nat) (nodes : List Nat) : Prop :=
  ∀ node ∈ nodes, ∀ n ∈ art.paintTourNode levels node, (art.opacity n != 1.0) = false

/-- No node fades if all that is painted is opaque. -/
theorem Artwork.any_fades_eq_false_iff {art : Artwork} {levels : Nat} {nodes : List Nat} :
    nodes.any (art.fades levels) = false ↔ art.PaintsOpaque levels nodes := by
  simp only [List.any_eq_false, fades, PaintsOpaque, Bool.not_eq_true]

/-- A script is written for every compiled document, and each of its scopes leaves the opacity as it
was. Inside a scope the statements of a node, at any depth, leave the opacity as it was exactly if
it was that of the scope, or if nothing that is painted for the node is less than fully visible. The
same holds of nodes that are painted one after the other, so of what an earlier sibling leaves to a
later one. -/
theorem Compiled.opacity_kept_iff (c : Compiled) (art : Artwork) :
    ∃ script, c.script art c.outline.renderer = .ok script ∧
      (∀ o : EmitOptions, c.emit art o = .ok (script.text o)) ∧
      (∀ scope ∈ script.scopes, ∀ (run : ScopeRun) kept,
        Stmt.fadeAll run scope.body ⟨run.alpha, kept⟩ = ⟨run.alpha, kept⟩) ∧
      (∀ transform active levels node (run : ScopeRun) s,
        Stmt.fadeAll run (c.outline.paintNode art transform active levels node) s = s ↔
          s.current = run.alpha ∨ art.PaintsOpaque levels [node]) ∧
      ∀ transform active levels nodes (run : ScopeRun) s,
        Stmt.fadeAll run (nodes.flatMap (c.outline.paintNode art transform active levels)) s = s ↔
          s.current = run.alpha ∨ art.PaintsOpaque levels nodes := by
  obtain ⟨script, hscript, hwritten⟩ := c.exists_script art
  refine ⟨script, hscript, emit_of_script hscript, fun scope hscope run kept => ?_,
    fun transform active levels node run s => ?_, fun transform active levels nodes run s => ?_⟩
  · obtain ⟨hlength, hbodies⟩ := List.forall₂_iff_get.mp (paintsBody_scopes hwritten)
    obtain ⟨i, rfl⟩ := List.get_of_mem hscope
    obtain ⟨transform, active, hbody⟩ := hbodies i.1 (by rw [hlength]; exact i.2) i.2
    rw [hbody]
    generalize (c.parts.get _).firsts c = firsts
    -- from the opacity of the scope on, every list of siblings comes back to it
    induction firsts with
    | nil => rfl
    | cons first firsts ih =>
      have hback : ∀ b, OpacityState.resetIf run.alpha b ⟨run.alpha, kept⟩ = ⟨run.alpha, kept⟩ :=
        fun _ => OpacityState.resetIf_eq_self_iff.mpr (Or.inl rfl)
      rw [List.flatMap_cons, Stmt.fadeAll_append, paintFrom, Outline.fadeAll_siblings, hback, ih]
  · rw [Outline.fadeAll_paintNode, OpacityState.resetIf_eq_self_iff,
      ← Artwork.any_fades_eq_false_iff, List.any_cons, List.any_nil, Bool.or_false]
  · rw [Outline.fadeAll_siblings, OpacityState.resetIf_eq_self_iff,
      Artwork.any_fades_eq_false_iff]

namespace ArtDocument

/-- A layer with a group that is half visible. Of its two nodes the first one is half visible and
the second one fully. -/
def fadedGroup : ArtDocument where
  layers := #[{ name := "a", art := some 0 }]
  nodes := #[
    { bounds := unitBox, opacity := 0.5, firstChild := some 1 },
    { bounds := unitBox, opacity := 0.5, fill := .solid ⟨255, 0, 0, 255⟩
      path := some "M0 0 L1 0", nextSibling := some 2 },
    { bounds := unitBox, fill := .solid ⟨255, 0, 0, 255⟩, path := some "M0 0 L1 1" }]

/-- In `fadedGroup` the first node of the group is painted with half of the opacity, and leaves the
whole of it to the second one. -/
theorem opacity_not_kept_fadedGroup :
    fadedGroup.Valid ∧ ∃ c script, fadedGroup.view.compile {} = .ok c ∧
      c.script fadedGroup.view c.outline.renderer = .ok script ∧
      ∃ scope ∈ script.scopes, ∃ transform earlier later,
        scope.body = earlier ++ c.outline.paintNode fadedGroup.view transform none 255 1 ++ later ∧
          Stmt.fadeAll ⟨1.0, fun _ a => a⟩ earlier ⟨1.0, []⟩ = ⟨0.5, []⟩ ∧
          Stmt.fadeAll ⟨1.0, fun _ a => a⟩
            (earlier ++ c.outline.paintNode fadedGroup.view transform none 255 1) ⟨1.0, []⟩ =
              ⟨1.0, []⟩ := by
  have hvalid : fadedGroup.Valid := by decide +kernel
  have hcompile : (fadedGroup.view.compile {}).toOption.any (fun c =>
      decide (c.layers.map Layer.art = [some 0] ∧
        c.functions.draws.map (fun entry => (entry.2.layers, entry.2.imageFile)) =
          [([0], none)])) = true := by decide +kernel
  obtain ⟨c, hc, hparts⟩ := exists_ok_of_any hcompile
  obtain ⟨hlayers, hdraws⟩ := of_decide_eq_true hparts
  obtain ⟨l, hl, hart⟩ := List.map_eq_singleton_iff.mp hlayers
  obtain ⟨⟨i, f⟩, hf, heq⟩ := List.map_eq_singleton_iff.mp hdraws
  have hpositions : f.layers = [0] := congrArg Prod.fst heq
  have hfile : f.imageFile = none := congrArg Prod.snd heq
  have hscope : c.outlineLayers fadedGroup.view f ∈ (c.outlineScript fadedGroup.view).scopes :=
    Compiled.outlineLayers_mem_scopes _ (hf ▸ List.mem_singleton_self _) hfile
  generalize htransform : f.placement.localTransform c.bounds = transform
  -- the layer is the group, and of the group only its two nodes are painted
  have hbody : (c.outlineLayers fadedGroup.view f).body =
      [.setAlpha 0.5] ++ c.outline.paintNode fadedGroup.view transform none 255 1 ++
        (c.outline.paintNode fadedGroup.view transform none 255 2 ++ [.resetAlpha]) := by
    have hsiblings : fadedGroup.view.siblings (some 0) = [0] := rfl
    have hgroup : (c.outlineLayers fadedGroup.view f).body =
        c.outline.paintNode fadedGroup.view transform none (255 + 1) 0 := by
      simp only [Compiled.outlineLayers, hpositions, hl, htransform, Compiled.paintFrom,
        List.flatMap_cons, List.flatMap_nil, List.append_nil, List.getElem?_cons_zero,
        Option.bind_some, hart, hsiblings]
      rfl
    have hvisible : fadedGroup.view.isHidden 0 = false := rfl
    have hopacity : fadedGroup.view.opacity 0 = 0.5 := rfl
    have hfaded : ((0.5 : Float) != 1.0) = true := by decide +kernel
    have hself : c.outline.paintSelf fadedGroup.view transform none 0 = [] := rfl
    have hbelow : fadedGroup.view.siblings (fadedGroup.view.paintArt 0) = [1, 2] := rfl
    rw [hgroup, Outline.paintNode_succ, hvisible, hopacity, hself, hbelow, Outline.withOpacity,
      if_neg (by decide), if_pos hfaded]
    simp
  refine ⟨hvalid, c, _, hc, Compiled.script_outline c _, _, hscope, _, _, _, hbody, ?_, ?_⟩
  · have hhalf : 1.0 * Stmt.writtenFactor 0.5 = 0.5 := by decide +kernel
    simp [Stmt.fade, hhalf]
  · have hfades : fadedGroup.view.fades 255 1 = true := by decide +kernel
    rw [Stmt.fadeAll_append, Outline.fadeAll_paintNode, hfades]
    rfl

end ArtDocument

end ArtCanvas
