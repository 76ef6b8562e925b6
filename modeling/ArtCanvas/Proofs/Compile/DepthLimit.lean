import ArtCanvas.Proofs.Compile.Dependence
import ArtCanvas.Proofs.Script.Scopes

/-!
# The limit on depth is never lossy in silence

The limit cuts two descents: the scan, which warns where it stops, and the search for the outline of
an animation function, which does not. Both go down from the first node of a layer with the same
number of levels, and the search takes only a part of the steps of the scan. So where the scan stops
nowhere, the search is not cut either.

* `Artwork.findPath_of_skipped`: the search with more levels, where the scan leaves nothing out.
* `Artwork.compile_of_no_limit_warning`: a document that is compiled without a warning about the
  limit is compiled to the same with every higher limit.
-/

namespace ArtCanvas

namespace Artwork

variable {art : Artwork}

@[simp]
theorem findPath_none (levels : Nat) : art.findPath levels none = none := by
  cases levels <;> rfl

/-- The search for an outline finds the same with more levels, if a scan from the same node with as
many levels leaves nothing out. -/
theorem findPath_of_skipped {levels : Nat} {first : Option Nat}
    (hnone : art.skipped levels first = []) (more : Nat) :
    art.findPath (levels + more) first = art.findPath levels first := by
  -- along the siblings, and below each of those that are visible
  induction levels generalizing first with
  | zero =>
    obtain rfl : first = none := Option.toList_eq_nil_iff.mp hnone
    rw [findPath_none, findPath_none]
  | succ levels ih =>
    rw [show levels + 1 + more = levels + more + 1 by omega, findPath, findPath,
      ← List.head?_filterMap, ← List.head?_filterMap]
    refine congrArg List.head? (List.filterMap_congr fun sibling hsibling => ?_)
    have hbelow := List.flatMap_eq_nil_iff.mp hnone sibling hsibling
    cases hhidden : art.isHidden sibling with
    | true => rfl
    | false =>
      rw [hhidden, if_neg Bool.false_ne_true, List.append_eq_nil_iff] at hbelow
      rw [if_neg Bool.false_ne_true, if_neg Bool.false_ne_true, ih hbelow.2]

/-- Where a scan adds no warning, nothing of the layers is left out. -/
theorem skipped_of_no_warnings {maxDepth : Nat} (hnone : (art.scan maxDepth).2.warnings = [])
    {layer : Nat} (hlayer : layer ∈ art.visibleLayers) :
    art.skipped maxDepth (art.firstArt layer) = [] := by
  obtain ⟨regs, heffect⟩ := art.effect_scan maxDepth
  obtain ⟨hlayers, -⟩ := heffect.skipped_eq_nil hnone
  exact List.flatMap_eq_nil_iff.mp hlayers layer hlayer

/-- Art that is compiled without a warning about the limit is compiled to the same document with
every higher limit: the layers, the functions with their outlines, the patterns, the page and the
warnings are the same. -/
theorem compile_of_no_limit_warning [CurveLibrary] {options : CompileOptions} {c : Compiled}
    (hc : art.compile options = .ok c) (hnone : ∀ levels, Warning.tooDeep levels ∉ c.warnings)
    {maxDepth : Nat} (hle : options.maxDepth ≤ maxDepth) :
    art.compile { options with maxDepth } = .ok c := by
  have hwarnings := scan_warnings_of_compile hc hnone
  have hscan : art.scan maxDepth = art.scan options.maxDepth := scan_of_no_warnings hle hwarnings
  rw [← hc]
  refine compile_congr rfl hscan fun layer hlayer => ?_
  -- the scanned layers are visible ones, and the scan came to the end of their art
  obtain ⟨more, rfl⟩ := Nat.exists_eq_add_of_le hle
  rw [hscan, scan_fst] at hlayer
  obtain ⟨visible, hvisible, rfl⟩ := List.mem_map.mp hlayer
  exact findPath_of_skipped (skipped_of_no_warnings hwarnings hvisible) more

end Artwork

namespace ArtDocument

/-- A layer for an animation function. Its outline lies below another node. -/
def deepOutline : ArtDocument where
  layers := #[{ name := "move(type:animation)", art := some 0 }]
  nodes := #[
    { bounds := unitBox, firstChild := some 1 },
    { bounds := unitBox, path := some "M0 0 L1 0" }]

/-- Two levels are enough for `deepOutline`: with them nothing is left out, the outline is found,
and with five levels the document is the same. With one level the outline is lost, but not without a
warning. -/
theorem compile_of_no_limit_warning_deepOutline :
    deepOutline.Valid ∧
      (∃ c, deepOutline.view.compile { maxDepth := 2 } = .ok c ∧
        (∀ levels, Warning.tooDeep levels ∉ c.warnings) ∧
        c.functions.animations.map (fun entry => entry.2.segments.length) = [1] ∧
        deepOutline.view.compile { maxDepth := 5 } = .ok c) ∧
      ∃ c, deepOutline.view.compile { maxDepth := 1 } = .ok c ∧
        c.functions.animations.map (fun entry => entry.2.segments.length) = [0] ∧
        Warning.tooDeep 1 ∈ c.warnings := by
  have hvalid : deepOutline.Valid := by decide +kernel
  have hdeep : (deepOutline.view.compile { maxDepth := 2 }).toOption.any (fun c =>
      decide (c.warnings = [] ∧
        c.functions.animations.map (fun entry => entry.2.segments.length) = [1])) = true := by
    decide +kernel
  have hcut : (deepOutline.view.compile { maxDepth := 1 }).toOption.any (fun c =>
      decide (c.functions.animations.map (fun entry => entry.2.segments.length) = [0] ∧
        Warning.tooDeep 1 ∈ c.warnings)) = true := by
    decide +kernel
  obtain ⟨c, hc, hdeep⟩ := exists_ok_of_any hdeep
  obtain ⟨hwarnings, houtline⟩ := of_decide_eq_true hdeep
  obtain ⟨cut, hcutCompile, hcut⟩ := exists_ok_of_any hcut
  -- without any warning there is none about the limit
  have hnone : ∀ levels, Warning.tooDeep levels ∉ c.warnings := by simp [hwarnings]
  have hle : 2 ≤ 5 := by decide
  exact ⟨hvalid,
    ⟨c, hc, hnone, houtline, Artwork.compile_of_no_limit_warning hc hnone hle⟩,
    cut, hcutCompile, of_decide_eq_true hcut⟩

end ArtDocument

end ArtCanvas
