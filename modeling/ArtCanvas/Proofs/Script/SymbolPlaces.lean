import ArtCanvas.Proofs.Script.CanvasMap
import ArtCanvas.Proofs.Script.SymbolFactors

/-!
# Where symbols are painted

The function of a symbol paints the art of its pattern from the upper left corner of its box on.
Before the call the origin is moved to the corner of the box that is wanted, and the axes are scaled
by the factors between the two boxes, unless these are almost one. All these numbers are written
with three decimal places. What this rounds off a factor is multiplied by the size of the art.

* `SymbolPlacement.Measured`: what is assumed about the sizes of a symbol.
* `SymbolPlacement.paintedCorner`, `SymbolPlacement.wantedCorner`: where a corner of the art is
  painted, and where it is wanted.
* `SymbolPlacement.Measured.corner_near`: how far the one is from the other.
* `Compiled.symbols_near_place`: what this means for a script.
-/

namespace ArtCanvas

open Decimal (exact)
open Binary64 (Within)

/-- All edges of the box are within a bound. -/
structure Box.Within (r : ℚ) (b : Box Float) : Prop where
  left : Binary64.Within r b.left
  top : Binary64.Within r b.top
  right : Binary64.Within r b.right
  bottom : Binary64.Within r b.bottom

/-- A corner of a box: one of the left or the right ones, and one of the upper or the lower ones. -/
def Box.corner {α : Type} (b : Box α) (right lower : Bool) : Point α :=
  ⟨if right then b.right else b.left, if lower then b.bottom else b.top⟩

namespace SymbolPlacement

/-- All numbers for a symbol are within a bound, the box that is wanted has a width and a height,
and so has the box of the art, where they are not even smaller than the inverse of the bound. -/
structure Measured (r : ℚ) (transform : Affine Float) (placed content : Box Float) : Prop where
  one_le : 1 ≤ r
  le : r ≤ 2 ^ 100
  e : Within r transform.e
  f : Within r transform.f
  placed_within : placed.Within r
  content_within : content.Within r
  width : exact placed.left < exact placed.right
  height : exact placed.bottom < exact placed.top
  content_width : 1 / r ≤ exact content.right - exact content.left
  content_height : 1 / r ≤ exact content.top - exact content.bottom

/-- Where a corner of the art is painted: its own function maps it, and before it the map that is
written for the symbol. -/
def paintedCorner (transform : Affine Float) (placed content : Box Float) (right lower : Bool) :
    Point ℚ :=
  (SymbolPlacement.of transform placed content).written.apply
    ((content.contentTransform.map exact).apply ((content.map exact).corner right lower))

/-- Where a corner of the art is wanted: at the corner of the box that the scope maps. -/
def wantedCorner (transform : Affine Float) (placed : Box Float) (right lower : Bool) : Point ℚ :=
  (transform.map exact).apply ((placed.map exact).corner right lower)

namespace Measured

variable {r : ℚ} {transform : Affine Float} {placed content : Box Float}
  (h : Measured r transform placed content)

include h

/-- The art of a pattern has some width. -/
theorem content_width_pos : 0 < exact content.right - exact content.left :=
  (one_div_pos.mpr (zero_lt_one.trans_le h.one_le)).trans_le h.content_width

/-- It has some height. -/
theorem content_height_pos : 0 < exact content.top - exact content.bottom :=
  (one_div_pos.mpr (zero_lt_one.trans_le h.one_le)).trans_le h.content_height

/-- The horizontal factor is the quotient of the widths, up to rounding. -/
theorem isFactor_width : IsFactor r (exact placed.right - exact placed.left)
    (exact content.right - exact content.left) (placed.width / content.width) :=
  factor_near h.one_le h.le h.content_within.left h.content_within.right h.content_width
    h.placed_within.left h.placed_within.right h.width

/-- So is the vertical one, of the heights. -/
theorem isFactor_height : IsFactor r (exact placed.top - exact placed.bottom)
    (exact content.top - exact content.bottom) (placed.height / content.height) :=
  factor_near h.one_le h.le h.content_within.bottom h.content_within.top h.content_height
    h.placed_within.bottom h.placed_within.top h.height

/-- The box of the art has a point. -/
theorem isEmpty_eq_false : content.isEmpty = false := by
  have hoccupied : content.Occupied := by
    refine ⟨(Binary64.le_iff_exact h.content_within.left.finite
      h.content_within.right.finite).mpr ?_, (Binary64.le_iff_exact h.content_within.bottom.finite
        h.content_within.top.finite).mpr ?_⟩
    · exact (sub_pos.mp h.content_width_pos).le
    · exact (sub_pos.mp h.content_height_pos).le
  simp [Box.isEmpty, hoccupied]

/-- The sizes of the art are positive after rounding. -/
theorem size_pos {lo hi : Float} (hlo : Within r lo) (hhi : Within r hi)
    (hsize : 1 / r ≤ exact hi - exact lo) : 0.0 < hi - lo := by
  obtain ⟨hfinite, hnear⟩ := size_near h.one_le h.le hlo hhi hsize
  have hpos : 0 < exact hi - exact lo :=
    (one_div_pos.mpr (zero_lt_one.trans_le h.one_le)).trans_le hsize
  rw [Binary64.lt_iff_exact Binary64.exact_zero.1 hfinite, Binary64.exact_zero.2]
  linarith [abs_le.mp hnear]

/-- The factors are written, unless both are almost one. -/
theorem scale_eq : (SymbolPlacement.of transform placed content).scale =
    if unitTolerance < Scalar.magnitude (placed.width / content.width - 1.0) ∨
        unitTolerance < Scalar.magnitude (placed.height / content.height - 1.0) then
      some (placed.width / content.width, placed.height / content.height)
    else none := by
  have hwidth : 0.0 < content.width :=
    h.size_pos h.content_within.left h.content_within.right h.content_width
  have hheight : 0.0 < content.height :=
    h.size_pos h.content_within.bottom h.content_within.top h.content_height
  simp [SymbolPlacement.of, h.isEmpty_eq_false, hwidth, hheight]

/-- Factors that are written are those between the sizes. -/
theorem eq_of_scale {x y : Float}
    (hscale : (SymbolPlacement.of transform placed content).scale = some (x, y)) :
    placed.width / content.width = x ∧ placed.height / content.height = y := by
  rw [h.scale_eq] at hscale
  split at hscale
  · cases hscale
    exact ⟨rfl, rfl⟩
  · cases hscale

/-- Whether or not factors are written, the map scales the art to almost the size that is wanted,
and moves it to the corner that is written. -/
theorem exists_factors : ∃ x y : ℚ,
    (∀ q, (SymbolPlacement.of transform placed content).written.apply q =
      ⟨x * q.x + Decimal.written (transform.apply ⟨placed.left, placed.top⟩).x,
        y * q.y + Decimal.written (transform.apply ⟨placed.left, placed.top⟩).y⟩) ∧
    |x * (exact content.right - exact content.left) - (exact placed.right - exact placed.left)| ≤
      (exact content.right - exact content.left) / 2000 + r / 2 ^ 48 ∧
    |y * (exact content.top - exact content.bottom) - (exact placed.top - exact placed.bottom)| ≤
      (exact content.top - exact content.bottom) / 2000 + r / 2 ^ 48 := by
  have hx := h.isFactor_width
  have hy := h.isFactor_height
  by_cases hdiffers : unitTolerance < Scalar.magnitude (placed.width / content.width - 1.0) ∨
      unitTolerance < Scalar.magnitude (placed.height / content.height - 1.0)
  · -- the factors are written, with three decimal places
    have hscale := h.scale_eq
    rw [if_pos hdiffers] at hscale
    refine ⟨_, _, fun q => ?_, hx.near_thousandths h.content_width_pos.le,
      hy.near_thousandths h.content_height_pos.le⟩
    rw [written, hscale]
    dsimp only
    rw [Affine.mul_eq_comp, Affine.apply_comp, Affine.apply_scale, Affine.apply_translate,
      Decimal.written_eq hx.within.finite, Decimal.written_eq hy.within.finite]
    rfl
  · -- both factors are almost one, and the art is only moved
    have hscale := h.scale_eq
    rw [if_neg hdiffers] at hscale
    rw [not_or] at hdiffers
    refine ⟨1, 1, fun q => ?_, hx.near_one h.content_width_pos.le hdiffers.1,
      hy.near_one h.content_height_pos.le hdiffers.2⟩
    rw [written, hscale, one_mul, one_mul]
    exact Affine.apply_translate _ q

/-- Along one axis: the error of the corner, and for the far corners that of the factor. -/
theorem axis_near {size wanted factor start origin : ℚ}
    (hfactor : |factor * size - wanted| ≤ size / 2000 + r / 2 ^ 48)
    (hstart : |start - origin| ≤ 1 / 2000 + r / 2 ^ 50) (far : Bool) :
    |factor * (if far then size else 0) + start - (origin + if far then wanted else 0)| ≤
      (1 + if far then size else 0) / 2000 + r / 2 ^ 47 := by
  have hr := h.one_le
  cases far with
  | false =>
    simp only [Bool.false_eq_true, if_false, mul_zero, zero_add, add_zero]
    linarith
  | true =>
    simp only [if_true]
    rw [abs_le]
    constructor <;> linarith [abs_le.mp hfactor, abs_le.mp hstart]

/-- The written corner is near the exact one. -/
theorem start_near (hflip : transform.IsFlip) :
    |Decimal.written (transform.apply ⟨placed.left, placed.top⟩).x -
        (exact placed.left + exact transform.e)| ≤ 1 / 2000 + r / 2 ^ 50 ∧
      |Decimal.written (transform.apply ⟨placed.left, placed.top⟩).y -
        (exact transform.f - exact placed.top)| ≤ 1 / 2000 + r / 2 ^ 50 := by
  obtain ⟨hfinite, hfinite', hx, hy⟩ := hflip.apply_near h.le h.one_le h.e h.f
    (q := ⟨placed.left, placed.top⟩) h.placed_within.left h.placed_within.top
  rw [Decimal.written_eq hfinite, Decimal.written_eq hfinite']
  constructor
  · exact (abs_sub_le _ _ _).trans (add_le_add (Decimal.abs_thousandths_sub_exact _) hx)
  · exact (abs_sub_le _ _ _).trans (add_le_add (Decimal.abs_thousandths_sub_exact _) hy)

/-- Each corner of the art is painted near the place where it is wanted. What is rounded off is half
a thousandth for the place of the upper left corner, and for the corners on the other sides as much
again for each unit of the size of the art. -/
theorem corner_near (hflip : transform.IsFlip) (right lower : Bool) :
    |(paintedCorner transform placed content right lower).x -
        (wantedCorner transform placed right lower).x| ≤
      (1 + if right then (content.map exact).width else 0) / 2000 + r / 2 ^ 47 ∧
    |(paintedCorner transform placed content right lower).y -
        (wantedCorner transform placed right lower).y| ≤
      (1 + if lower then (content.map exact).height else 0) / 2000 + r / 2 ^ 47 := by
  obtain ⟨x, y, hwritten, hx, hy⟩ := h.exists_factors
  obtain ⟨hstart, hstart'⟩ := h.start_near hflip
  have hr : 0 ≤ r := zero_le_one.trans h.one_le
  rw [paintedCorner, wantedCorner, hwritten, hflip.apply_map_exact, Box.exact_contentTransform h.le
    hr h.content_within.left h.content_within.top h.isEmpty_eq_false]
  constructor
  · refine (congrArg abs ?_).trans_le (h.axis_near hx hstart right)
    cases right with
    | false => simp [Box.corner, Box.map]
    | true =>
      simp only [Box.corner, Box.map, if_true]
      ring
  · refine (congrArg abs ?_).trans_le (h.axis_near hy hstart' lower)
    cases lower with
    | false => simp [Box.corner, Box.map]
    | true =>
      simp only [Box.corner, Box.map, if_true]
      ring

end Measured

end SymbolPlacement

namespace Compiled

/-- A script is written for every compiled document. Each of its scopes is painted through a flip,
and calls the functions of the symbols that are painted in it, each through the map that is written
for it. Such a call paints each corner of the art of the symbol near the place where the corner is
wanted: what is rounded off is half a thousandth, and for the corners on the right and below as much
again for each unit of the width and the height of the art. So up to 18 units it is less than a
hundredth. A factor that is written is near to what the sizes ask for, and it is written as 0
exactly if it is not greater than half a thousandth. -/
theorem symbols_near_place (c : Compiled) (art : Artwork) :
    ∃ script, c.script art c.outline.renderer = .ok script ∧
      (∀ o : EmitOptions, c.emit art o = .ok (script.text o)) ∧
      List.Forall₂ (fun part scope =>
        (part.transform c).IsFlip ∧ c.CallsSymbols art part scope) c.parts script.scopes ∧
      ∀ part ∈ c.parts, ∀ node ∈ part.painted c art, ∀ active p,
        c.outline.symbolAt? art active node = some p →
        ∀ r, SymbolPlacement.Measured r (part.transform c) (art.bounds node) p.bounds →
        let placed := (art.bounds node).map exact
        let content := p.bounds.map exact
        let painted := SymbolPlacement.paintedCorner (part.transform c) (art.bounds node) p.bounds
        let wanted := SymbolPlacement.wantedCorner (part.transform c) (art.bounds node)
        (∀ right lower,
          |(painted right lower).x - (wanted right lower).x| ≤
              (1 + if right then content.width else 0) / 2000 + r / 2 ^ 47 ∧
          |(painted right lower).y - (wanted right lower).y| ≤
              (1 + if lower then content.height else 0) / 2000 + r / 2 ^ 47) ∧
        (content.width ≤ 18 → content.height ≤ 18 → r ≤ 2 ^ 36 → ∀ right lower,
          |(painted right lower).x - (wanted right lower).x| ≤ 1 / 100 ∧
          |(painted right lower).y - (wanted right lower).y| ≤ 1 / 100) ∧
        ∀ x y, (SymbolPlacement.of (part.transform c) (art.bounds node) p.bounds).scale =
            some (x, y) →
          |exact x * content.width - placed.width| ≤ r / 2 ^ 48 ∧
          |exact y * content.height - placed.height| ≤ r / 2 ^ 48 ∧
          (Decimal.written x = 0 ↔ |exact x| ≤ 1 / 2000) ∧
          (Decimal.written y = 0 ↔ |exact y| ≤ 1 / 2000) := by
  obtain ⟨script, hscript, hwritten⟩ := c.exists_script art
  refine ⟨script, hscript, emit_of_script hscript,
    (callsSymbols_scopes hwritten).imp fun part _ hcalls => ⟨part.isFlip_transform c, hcalls⟩,
    fun part _ node _ active p _ r hmeasured => ?_⟩
  intro placed content painted wanted
  have hcorner := hmeasured.corner_near (part.isFlip_transform c)
  -- the bound for small symbols follows from that for all; the factors are bounded by themselves
  refine ⟨hcorner, fun hwidth hheight hr right lower => ?_, fun x y hscale => ?_⟩
  · obtain ⟨hx, hy⟩ := hcorner right lower
    have hwidth' : (if right then content.width else 0) ≤ 18 := by split <;> linarith
    have hheight' : (if lower then content.height else 0) ≤ 18 := by split <;> linarith
    constructor <;> linarith
  · obtain ⟨rfl, rfl⟩ := hmeasured.eq_of_scale hscale
    have hx := hmeasured.isFactor_width
    have hy := hmeasured.isFactor_height
    rw [Decimal.written_eq hx.within.finite, Decimal.written_eq hy.within.finite]
    exact ⟨hx.near, hy.near, Decimal.thousandths_eq_zero_iff _, Decimal.thousandths_eq_zero_iff _⟩

end Compiled

namespace ArtDocument

/-- A square of a given size above the origin. -/
def squareBox (size : Float) : Box Float := ⟨0.0, size, size, 0.0⟩

/-- A layer with a symbol of size 1, whose art is a square of a given size. -/
def scaledSymbol (size : Float) : ArtDocument where
  layers := #[{ name := "a", art := some 0 }]
  nodes := #[{ bounds := unitBox, kind := .symbol, symbol := some 0 },
    { bounds := squareBox size }]
  patterns := #[{ name := "dots", content := some 1 }]

/-- The map through which the layer of `scaledSymbol` is painted. -/
def unitPage : Affine Float := ⟨1.0, 0.0, 0.0, -1.0, 0.0, 1.0⟩

section ScaledSymbol

variable {size : Float} {n : ℚ} {c : Compiled}

/-- A unit box that shows a square keeps all bounds, if the square is not too large. -/
theorem measured_scaledSymbol (hfinite : size.isFinite = true) (hexact : exact size = n)
    (hn : 1 ≤ n) (hn' : n ≤ 2 ^ 100) :
    SymbolPlacement.Measured n unitPage unitBox (squareBox size) := by
  have hzero : Within n 0.0 :=
    ⟨Binary64.exact_zero.1, by rw [Binary64.exact_zero.2, abs_zero]; linarith⟩
  have hone : Within n 1.0 :=
    ⟨Binary64.exact_one.1, by rw [Binary64.exact_one.2, abs_one]; exact hn⟩
  have hsize : Within n size :=
    ⟨hfinite, by rw [hexact, abs_of_nonneg (by linarith)]⟩
  have hwanted : exact 0.0 < exact 1.0 := by
    rw [Binary64.exact_zero.2, Binary64.exact_one.2]
    exact zero_lt_one
  have hgiven : 1 / n ≤ exact size - exact 0.0 := by
    rw [Binary64.exact_zero.2, hexact, sub_zero]
    exact ((div_le_one₀ (by linarith)).mpr hn).trans hn
  exact ⟨hn, hn', hzero, hone, ⟨hzero, hone, hone, hzero⟩, ⟨hzero, hsize, hsize, hzero⟩, hwanted,
    hwanted, hgiven, hgiven⟩

/-- What is compiled from the document: a draw function that paints the layer, on the page, and a
pattern with the art of the symbol. -/
def CompiledScaled (size : Float) (c : Compiled) : Prop :=
  c.layers.map Layer.art = [some 0] ∧
    (c.functions.draws.map fun entry => (entry.2.layers, entry.2.imageFile,
      (entry.2.placement.localTransform c.bounds).e,
      (entry.2.placement.localTransform c.bounds).f)) = [([0], none, 0.0, 1.0)] ∧
    ((c.patterns.find? 0).map fun p =>
      (p.bounds.left, p.bounds.top, p.bounds.right, p.bounds.bottom)) =
        some (0.0, size, size, 0.0)

/-- What a compile gives is compared part by part. -/
instance (c : Compiled) : Decidable (CompiledScaled size c) := by
  unfold CompiledScaled
  infer_instance

/-- The layer is painted by the statements of the symbol. -/
theorem body_scaledSymbol [CurveLibrary] {l : Layer} {f : DrawFunction} {p : Pattern}
    (hl : c.layers = [l])
    (hart : l.art = some 0) (hpositions : f.layers = [0]) (hfind : c.patterns.find? 0 = some p) :
    (c.outlineLayers (scaledSymbol size).view f).body =
      Outline.callSymbol (f.placement.localTransform c.bounds) unitBox p := by
  generalize htransform : f.placement.localTransform c.bounds = transform
  have hsiblings : (scaledSymbol size).view.siblings (some 0) = [0] := rfl
  have hvisible : (scaledSymbol size).view.isHidden 0 = false := rfl
  have hopacity : (scaledSymbol size).view.opacity 0 = 1.0 := rfl
  have hopaque : ((1.0 : Float) != 1.0) = false := by decide +kernel
  have hbelow : (scaledSymbol size).view.siblings ((scaledSymbol size).view.paintArt 0) = [] := rfl
  have hself : c.outline.paintSelf (scaledSymbol size).view transform none 0 =
      Outline.callSymbol transform unitBox p := by
    have hkind : (scaledSymbol size).view.kind 0 = .symbol := rfl
    have hhandle : (scaledSymbol size).view.symbolPattern 0 = some 0 := rfl
    have hfind' : c.outline.patterns.find? 0 = some p := hfind
    simp only [Outline.paintSelf, hkind, Outline.paintSymbol, hhandle, hfind']
    rfl
  have hdepth : c.outline.maxDepth = 255 + 1 := rfl
  simp only [Compiled.outlineLayers, hpositions, hl, htransform, Compiled.paintFrom,
    List.flatMap_cons, List.flatMap_nil, List.append_nil, List.getElem?_cons_zero,
    Option.bind_some, hart, hsiblings, hdepth, Outline.paintNode_succ, hvisible,
    Bool.false_eq_true, if_false, Outline.withOpacity, hopacity, hopaque, hself, hbelow]

/-- The layer is a part of the script, its node is painted as a symbol, and its scope holds the
statements of the symbol and no others. -/
theorem exists_symbolScope [CurveLibrary] (h : CompiledScaled size c) :
    ∃ part ∈ c.parts, 0 ∈ part.painted c (scaledSymbol size).view ∧
      part.transform c = unitPage ∧
      ∃ p, c.outline.symbolAt? (scaledSymbol size).view none 0 = some p ∧
        p.bounds = squareBox size ∧
        ∃ scope ∈ (c.outlineScript (scaledSymbol size).view).scopes,
          scope.body = Outline.callSymbol unitPage unitBox p := by
  obtain ⟨hlayers, hdraws, hpattern⟩ := h
  obtain ⟨l, hl, hart⟩ := List.map_eq_singleton_iff.mp hlayers
  obtain ⟨entry, hentry, heq⟩ := List.map_eq_singleton_iff.mp hdraws
  obtain ⟨p, hfind, hbox⟩ := Option.map_eq_some_iff.mp hpattern
  simp only [Prod.mk.injEq] at heq hbox
  obtain ⟨hpositions, hfile, he, hf⟩ := heq
  have hmem : entry ∈ c.functions.draws := hentry ▸ List.mem_singleton_self _
  have hsymbol : c.outline.symbolAt? (scaledSymbol size).view none 0 = some p := hfind
  have hbounds : p.bounds = squareBox size := by
    obtain ⟨hleft, htop, hright, hbottom⟩ := hbox
    change (⟨p.bounds.left, p.bounds.top, p.bounds.right, p.bounds.bottom⟩ : Box Float) = _
    rw [hleft, htop, hright, hbottom]
    rfl
  have htransform : entry.2.placement.localTransform c.bounds = unitPage := by
    rw [(entry.2.placement.isFlip_localTransform c.bounds).eq_mk, he, hf]
    rfl
  have hbody := @body_scaledSymbol size c _ _ _ _ hl hart hpositions hfind
  rw [htransform] at hbody
  refine ⟨.layers entry.2, Compiled.layers_mem_parts hmem hfile, ?_, htransform, p, hsymbol,
    hbounds, _, Compiled.outlineLayers_mem_scopes _ hmem hfile, hbody⟩
  -- the only layer starts with the only node of its art
  have hfirsts : (Part.layers entry.2).firsts c = [some 0] := by
    simp [Part.firsts, hpositions, hl, hart]
  have hsiblings : (scaledSymbol size).view.siblings (some 0) = [0] := rfl
  have hvisible : (scaledSymbol size).view.isHidden 0 = false := rfl
  have hdepth : c.outline.maxDepth = 255 + 1 := rfl
  rw [Part.painted, hfirsts, List.flatMap_singleton, hdepth, Artwork.paintTour, hsiblings,
    List.flatMap_singleton, hvisible]
  exact List.mem_cons_self

end ScaledSymbol

theorem exact_four : exact 4.0 = 4 := by
  have hfields : Decimal.Dyadic.ofFloat 4.0 = ⟨false, 2 ^ 52, -50⟩ := by decide +kernel
  rw [exact, hfields]
  norm_num [Decimal.Dyadic.value]

/-- In `scaledSymbol 4` the art is four times as large as it is wanted, and painted within a
hundredth of where it is wanted. -/
theorem symbols_near_place_four :
    (scaledSymbol 4.0).Valid ∧ ∃ c script, (scaledSymbol 4.0).view.compile {} = .ok c ∧
      c.script (scaledSymbol 4.0).view c.outline.renderer = .ok script ∧
      ∃ part ∈ c.parts, ∃ node ∈ part.painted c (scaledSymbol 4.0).view, ∃ p,
        c.outline.symbolAt? (scaledSymbol 4.0).view none node = some p ∧
        SymbolPlacement.Measured 4 (part.transform c) ((scaledSymbol 4.0).view.bounds node)
          p.bounds ∧
        ∀ right lower,
          let painted := SymbolPlacement.paintedCorner (part.transform c)
            ((scaledSymbol 4.0).view.bounds node) p.bounds right lower
          let wanted := SymbolPlacement.wantedCorner (part.transform c)
            ((scaledSymbol 4.0).view.bounds node) right lower
          |painted.x - wanted.x| ≤ 1 / 100 ∧ |painted.y - wanted.y| ≤ 1 / 100 := by
  have hvalid : (scaledSymbol 4.0).Valid := by decide +kernel
  have hcompile : ((scaledSymbol 4.0).view.compile {}).toOption.any
      (fun c => decide (CompiledScaled 4.0 c)) = true := by decide +kernel
  obtain ⟨c, hc, hscaled⟩ := exists_ok_of_any hcompile
  obtain ⟨part, hpart, hnode, htransform, p, hsymbol, hbounds, -⟩ :=
    exists_symbolScope (of_decide_eq_true hscaled)
  have hmeasured : SymbolPlacement.Measured 4 (part.transform c)
      ((scaledSymbol 4.0).view.bounds 0) p.bounds := by
    rw [htransform, hbounds]
    exact measured_scaledSymbol (by decide +kernel) exact_four (by norm_num) (by norm_num)
  obtain ⟨script, hscript, -, -, hnear⟩ := c.symbols_near_place (scaledSymbol 4.0).view
  obtain ⟨-, hsmall, -⟩ := hnear part hpart 0 hnode none p hsymbol 4 hmeasured
  -- a square of four units is small enough for the last bound
  have hsize : (p.bounds.map exact).width ≤ 18 ∧ (p.bounds.map exact).height ≤ 18 := by
    rw [hbounds]
    change exact 4.0 - exact 0.0 ≤ 18 ∧ exact 4.0 - exact 0.0 ≤ 18
    rw [exact_four, Binary64.exact_zero.2]
    norm_num
  exact ⟨hvalid, c, script, hc, hscript, part, hpart, 0, hnode, p, hsymbol, hmeasured,
    hsmall hsize.1 hsize.2 (by norm_num)⟩

theorem exact_4096 : exact 4096.0 = 4096 := by
  have hfields : Decimal.Dyadic.ofFloat 4096.0 = ⟨false, 2 ^ 52, -40⟩ := by decide +kernel
  rw [exact, hfields]
  norm_num [Decimal.Dyadic.value]

/-- For art of size 4096 factors are written. -/
theorem placement_large : SymbolPlacement.of unitPage unitBox (squareBox 4096.0) =
    ⟨⟨0.0, 0.0⟩, some (0.000244140625, 0.000244140625)⟩ := by
  have hx : (unitPage.apply ⟨unitBox.left, unitBox.top⟩).x = 0.0 := by decide +kernel
  have hy : (unitPage.apply ⟨unitBox.left, unitBox.top⟩).y = 0.0 := by decide +kernel
  have hscale : (SymbolPlacement.of unitPage unitBox (squareBox 4096.0)).scale =
      some (0.000244140625, 0.000244140625) := by decide +kernel
  exact congrArg₂ SymbolPlacement.mk (congrArg₂ Point.mk hx hy) hscale

/-- The numbers that are written for this placement are all 0. -/
theorem written_large : Decimal.written 0.0 = 0 ∧ Decimal.written 0.000244140625 = 0 := by
  have hfields : Decimal.Dyadic.ofFloat 0.000244140625 = ⟨false, 2 ^ 52, -64⟩ := by decide +kernel
  constructor
  · rw [Decimal.written_eq Binary64.exact_zero.1, Decimal.thousandths_eq_zero_iff,
      Binary64.exact_zero.2]
    norm_num
  · rw [Decimal.written_eq (by decide +kernel), Decimal.thousandths_eq_zero_iff, exact, hfields]
    norm_num [Decimal.Dyadic.value]

/-- In `scaledSymbol 4096` the art is so much larger than it is wanted that the factors are written
as 0. All of the art is painted at one point. -/
theorem symbol_not_near_large :
    (scaledSymbol 4096.0).Valid ∧ ∃ c script, (scaledSymbol 4096.0).view.compile {} = .ok c ∧
      c.script (scaledSymbol 4096.0).view c.outline.renderer = .ok script ∧
      ∃ part ∈ c.parts, ∃ node ∈ part.painted c (scaledSymbol 4096.0).view, ∃ p,
        let placed := (scaledSymbol 4096.0).view.bounds node
        c.outline.symbolAt? (scaledSymbol 4096.0).view none node = some p ∧
        SymbolPlacement.Measured 4096 (part.transform c) placed p.bounds ∧
        (∃ scope ∈ script.scopes, ∃ corner x y, scope.body =
            [.save, .translate corner, .scale x y, .callSymbol p.functionName, .restore] ∧
          Decimal.written x = 0 ∧ Decimal.written y = 0) ∧
        SymbolPlacement.paintedCorner (part.transform c) placed p.bounds true true = ⟨0, 0⟩ ∧
        SymbolPlacement.wantedCorner (part.transform c) placed true true = ⟨1, 1⟩ := by
  have hvalid : (scaledSymbol 4096.0).Valid := by decide +kernel
  have hcompile : ((scaledSymbol 4096.0).view.compile {}).toOption.any
      (fun c => decide (CompiledScaled 4096.0 c)) = true := by decide +kernel
  obtain ⟨c, hc, hscaled⟩ := exists_ok_of_any hcompile
  obtain ⟨part, hpart, hnode, htransform, p, hsymbol, hbounds, scope, hscope, hbody⟩ :=
    exists_symbolScope (of_decide_eq_true hscaled)
  -- both factors are written as zero, which takes all art to one corner
  obtain ⟨hzero, hfactor⟩ := written_large
  refine ⟨hvalid, c, _, hc, c.script_outline _, part, hpart, 0, hnode, p, ?_⟩
  intro placed
  have hplaced : placed = unitBox := rfl
  rw [htransform, hbounds, hplaced]
  refine ⟨hsymbol, ?_, ⟨scope, hscope, ⟨0.0, 0.0⟩, _, _, ?_, hfactor, hfactor⟩, ?_, ?_⟩
  · exact measured_scaledSymbol (by decide +kernel) exact_4096 (by norm_num) (by norm_num)
  · rw [hbody, Outline.callSymbol, hbounds, placement_large]
    rfl
  · rw [SymbolPlacement.paintedCorner, SymbolPlacement.written, placement_large]
    simp only [hzero, hfactor, Affine.mul_eq_comp, Affine.apply_comp, Affine.apply_scale,
      Affine.apply_translate, zero_mul]
    exact congrArg₂ Point.mk (add_zero 0) (add_zero 0)
  · have hflip : unitPage.IsFlip := ⟨rfl, rfl, rfl, rfl⟩
    rw [SymbolPlacement.wantedCorner, hflip.apply_map_exact]
    change (⟨exact 1.0 + exact 0.0, exact 1.0 - exact 0.0⟩ : Point ℚ) = _
    rw [Binary64.exact_zero.2, Binary64.exact_one.2, add_zero, sub_zero]

end ArtDocument

end ArtCanvas
