import ArtCanvas.Proofs.Decimal.Written
import ArtCanvas.Proofs.Geometry.Flips
import ArtCanvas.Proofs.Script.Scopes

/-!
# What painting does to the map of a drawing context

Statements paint through a map that other statements change: the origin is moved, the axes are
scaled, and what was kept is taken back. The numbers that count are those that are written. A symbol
is painted by a call of its function, through the map that is in use at that moment.

* `Stmt.placeAll`: what statements do to the map, and through which maps they call functions.
* `SymbolPlacement.written`: the map that is written for a symbol.
* `Outline.placeAll_paintNode`: the statements of a node call the functions of the symbols that are
  painted for it, and leave the map as it was.
* `Compiled.callsSymbols_scopes`: the scope of a part calls the functions of the symbols in it.
-/

namespace ArtCanvas

/-- The map of a drawing context, and the calls that were made with it. -/
structure CanvasState where
  /-- What is painted through now. -/
  current : Affine ℚ
  /-- What was kept, the last one first. -/
  kept : List (Affine ℚ)
  /-- The functions that were called to paint symbols, each with the map that was in use. -/
  calls : List (String × Affine ℚ)

namespace CanvasState

variable (s : CanvasState)

/-- Functions are called, each through a map of its own behind the current one. -/
def called (calls : List (String × Affine ℚ)) : CanvasState :=
  { s with calls := s.calls ++ calls.map fun call => (call.1, s.current * call.2) }

@[simp]
theorem called_nil : s.called [] = s := by
  rw [called, List.map_nil, List.append_nil]

/-- Calls that are made one after the other are listed in that order. -/
@[simp]
theorem called_called (calls more : List (String × Affine ℚ)) :
    (s.called calls).called more = s.called (calls ++ more) := by
  simp only [called, List.map_append, List.append_assoc]

end CanvasState

namespace Stmt

open Decimal (written)

/-- What a statement does to the map of a drawing context. Numbers are those that are written. -/
def place (s : CanvasState) : Stmt → CanvasState
  | .save => { s with kept := s.current :: s.kept }
  | .restore =>
    match s.kept with
    | [] => s
    | current :: kept => { s with current, kept }
  | .translate p =>
    { s with current := s.current * Affine.translate ⟨written p.x, written p.y⟩ }
  | .scale x y => { s with current := s.current * Affine.scale (written x) (written y) }
  | .callSymbol function => { s with calls := s.calls ++ [(function, s.current)] }
  | _ => s

/-- What statements do to the map of a drawing context, one after the other. -/
def placeAll (body : List Stmt) (s : CanvasState) : CanvasState := body.foldl place s

variable {s : CanvasState}

@[simp]
theorem placeAll_nil : placeAll [] s = s := rfl

/-- The first statement is carried out first. -/
@[simp]
theorem placeAll_cons (stmt : Stmt) (body : List Stmt) :
    placeAll (stmt :: body) s = placeAll body (place s stmt) := rfl

/-- Two bodies are carried out one after the other. -/
@[simp]
theorem placeAll_append (body body' : List Stmt) :
    placeAll (body ++ body') s = placeAll body' (placeAll body s) := List.foldl_append

/-- A statement for an outline leaves the map alone. -/
theorem place_of_paintsOutline {stmt : Stmt} (h : stmt.paintsOutline = true) (s : CanvasState) :
    place s stmt = s := by
  cases stmt <;> first | rfl | cases h

end Stmt

/-- The map that is written for the place of a symbol. -/
def SymbolPlacement.written (place : SymbolPlacement Float) : Affine ℚ :=
  let corner := Affine.translate ⟨Decimal.written place.corner.x, Decimal.written place.corner.y⟩
  match place.scale with
  | some (x, y) => corner * Affine.scale (Decimal.written x) (Decimal.written y)
  | none => corner

namespace Outline

variable (o : Outline) (art : Artwork) (transform : Affine Float) (active : Option Nat)

/-- The pattern that a node is painted with as a symbol. Nothing is painted for a symbol inside its
own art. -/
def symbolAt? (node : Nat) : Option Pattern :=
  match art.kind node with
  | .symbol =>
    (art.symbolPattern node).bind fun handle =>
      if active = some handle then none else o.patterns.find? handle
  | _ => none

/-- The call that paints a node as a symbol: the function, and the map that is written for it. -/
def symbolCall? (node : Nat) : Option (String × Affine ℚ) :=
  (o.symbolAt? art active node).map fun p =>
    (p.functionName, (SymbolPlacement.of transform (art.bounds node) p.bounds).written)

variable {o art transform active} {s : CanvasState}

/-- A symbol is called through the map that is written for it, and afterwards the map is as it was
before. -/
theorem placeAll_callSymbol {placed : Box Float} {p : Pattern} :
    Stmt.placeAll (callSymbol transform placed p) s =
      s.called [(p.functionName, (SymbolPlacement.of transform placed p.bounds).written)] := by
  unfold callSymbol
  generalize SymbolPlacement.of transform placed p.bounds = place
  obtain ⟨corner, scale⟩ := place
  cases scale with
  | none => rfl
  | some scale =>
    -- two maps are written, one behind the other
    rw [SymbolPlacement.written, CanvasState.called, List.map_singleton, ← Affine.comp_assoc]
    rfl

/-- Painting an outline leaves the map alone. -/
theorem placeAll_paintOutline {node : Nat} :
    Stmt.placeAll (o.paintOutline art transform node) s = s :=
  foldl_paintOutline (fun _ => Stmt.place_of_paintsOutline) node s

/-- What a node is itself calls a function if it is a symbol. -/
theorem placeAll_paintSelf {node : Nat} :
    Stmt.placeAll (o.paintSelf art transform active node) s =
      s.called (o.symbolCall? art transform active node).toList := by
  unfold paintSelf symbolCall? symbolAt?
  cases art.kind node with
  | plain => rw [placeAll_paintOutline]; exact s.called_nil.symm
  | pluginGroup => exact s.called_nil.symm
  | symbol =>
    dsimp only
    unfold paintSymbol
    cases art.symbolPattern node with
    | none => exact s.called_nil.symm
    | some handle =>
      dsimp only [Option.bind_some]
      -- no call within the function of the symbol itself
      split
      next => exact s.called_nil.symm
      next =>
        cases o.patterns.find? handle with
        | none => exact s.called_nil.symm
        | some p => exact placeAll_callSymbol

/-- The opacity does not change the map. -/
theorem placeAll_withOpacity {opacity : Float} {body : List Stmt} :
    Stmt.placeAll (withOpacity opacity body) s = Stmt.placeAll body s := by
  unfold withOpacity
  split
  · simp [Stmt.place]
  · rfl

/-- The calls of a list of nodes are those of its nodes. -/
theorem placeAll_flatMap {paint : Nat → List Stmt} {calls : Nat → List (String × Affine ℚ)}
    (h : ∀ node s, Stmt.placeAll (paint node) s = s.called (calls node)) (nodes : List Nat) :
    Stmt.placeAll (nodes.flatMap paint) s = s.called (nodes.flatMap calls) := by
  induction nodes generalizing s with
  | nil => exact s.called_nil.symm
  | cons node nodes ih =>
    rw [List.flatMap_cons, Stmt.placeAll_append, h, ih, CanvasState.called_called,
      List.flatMap_cons]

/-- The statements of a node call the functions of the symbols that are painted for it, each through
the map that is written for it. -/
theorem placeAll_paintNode (levels node : Nat) (s : CanvasState) :
    Stmt.placeAll (o.paintNode art transform active levels node) s =
      s.called ((art.paintTourNode levels node).filterMap
        (o.symbolCall? art transform active)) := by
  induction levels generalizing node s with
  | zero => exact s.called_nil.symm
  | succ levels ih =>
    rw [paintNode_succ, Artwork.paintTourNode]
    cases art.isHidden node with
    | true => exact s.called_nil.symm
    | false =>
      rw [if_neg (by simp), if_neg (by simp), placeAll_withOpacity, Stmt.placeAll_append,
        placeAll_paintSelf, placeAll_flatMap ih, CanvasState.called_called,
        Artwork.paintTour_eq_flatMap, ← List.filterMap_flatMap]
      congr 1
      rw [List.filterMap_cons]
      cases o.symbolCall? art transform active node <;> rfl

end Outline

namespace Part

/-- The map through which a part is painted. -/
def transform (c : Compiled) : Part → Affine Float
  | .pattern p => p.bounds.contentTransform
  | .layers f => f.placement.localTransform c.bounds

/-- The symbol whose own art a part is. -/
def handle? : Part → Option Nat
  | .pattern p => some p.handle
  | .layers _ => none

/-- The nodes of a part that the built-in renderer comes to, in the order of painting. -/
def painted (c : Compiled) (art : Artwork) (part : Part) : List Nat :=
  (part.firsts c).flatMap (art.paintTour c.outline.maxDepth)

/-- Each part is drawn with a map that turns the page over. -/
theorem isFlip_transform (c : Compiled) (part : Part) : (part.transform c).IsFlip := by
  cases part with
  | pattern p => exact p.bounds.isFlip_contentTransform
  | layers f => exact f.placement.isFlip_localTransform c.bounds

end Part

namespace Compiled

variable {c : Compiled} {art : Artwork}

/-- The statements for the art of a part call the functions of the symbols that are painted. -/
theorem placeAll_paintFrom (transform : Affine Float) (active : Option Nat) (part : Part)
    (s : CanvasState) :
    Stmt.placeAll ((part.firsts c).flatMap (c.paintFrom art transform active)) s =
      s.called ((part.painted c art).filterMap (c.outline.symbolCall? art transform active)) := by
  have hnodes : (part.firsts c).flatMap (c.paintFrom art transform active) =
      ((part.firsts c).flatMap art.siblings).flatMap
        (c.outline.paintNode art transform active c.outline.maxDepth) := by
    rw [List.flatMap_assoc]
    rfl
  have htour : art.paintTour c.outline.maxDepth = fun first =>
      (art.siblings first).flatMap (art.paintTourNode c.outline.maxDepth) :=
    funext fun first => Artwork.paintTour_eq_flatMap _ first
  have hpainted : part.painted c art = ((part.firsts c).flatMap art.siblings).flatMap
      (art.paintTourNode c.outline.maxDepth) := by
    rw [Part.painted, htour, List.flatMap_assoc]
  rw [hnodes, Outline.placeAll_flatMap (Outline.placeAll_paintNode _), hpainted,
    List.filterMap_flatMap]

/-- The scope of a part calls the functions of the symbols that are painted in it, each through the
map that is written for it. Only in the own function of a symbol the symbol itself is left out. -/
def CallsSymbols (c : Compiled) (art : Artwork) (part : Part) (scope : Scope) : Prop :=
  ∃ active, (active = none ∨ active = part.handle?) ∧ ∀ s, Stmt.placeAll scope.body s =
    s.called ((part.painted c art).filterMap
      (c.outline.symbolCall? art (part.transform c) active))

/-- Each scope of a script places symbols as its part does. -/
theorem callsSymbols_scopes {script : Script} (h : c.Written art script) :
    List.Forall₂ (c.CallsSymbols art) c.parts script.scopes := by
  refine forall₂_scopes h (fun p => ⟨some p.handle, Or.inr rfl, fun s => ?_⟩)
    (fun entry => ⟨none, Or.inl rfl, fun s => ?_⟩) fun f => ⟨none, Or.inl rfl, fun s => ?_⟩
  · rw [← placeAll_paintFrom]
    simp [Part.firsts, outlineSymbol, Part.transform]
  · rw [← placeAll_paintFrom]
    simp [Part.firsts, outlineTile, Part.transform]
  · rw [← placeAll_paintFrom]
    simp [Part.firsts, outlineLayers, List.flatMap_map, Part.transform]

end Compiled

end ArtCanvas
