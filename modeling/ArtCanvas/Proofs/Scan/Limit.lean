import ArtCanvas.Compile.Scan

/-!
# Scans with more levels

A scan that leaves nothing out does not depend on the limit: with more levels it does the same.

* `Follows`: a second way to change a state agrees with a first one wherever that adds no warning.
  It is kept by composition, so each step of a scan has one lemma.
* `Artwork.scan_of_no_warnings`: a scan without warnings is the scan for every higher limit.
-/

namespace ArtCanvas

/-- Warnings are only added by `f`, and where `f` adds none, `g` does the same as `f`. -/
def Follows (f g : ScanState → ScanState) : Prop :=
  ∀ s, s.warnings <+: (f s).warnings ∧ ((f s).warnings = s.warnings → g s = f s)

namespace Follows

variable {f f' g g' : ScanState → ScanState}

/-- A change that adds no warning follows itself. -/
theorem of_warnings (h : ∀ s, (f s).warnings = s.warnings) : Follows f f :=
  fun s => ⟨by simp [h s], fun _ => rfl⟩

theorem comp (hf : Follows f f') (hg : Follows g g') : Follows (g ∘ f) (g' ∘ f') := by
  intro s
  obtain ⟨hgrows, hsame⟩ := hf s
  obtain ⟨hgrows', hsame'⟩ := hg (f s)
  refine ⟨hgrows.trans hgrows', fun hnone => ?_⟩
  rw [Function.comp_apply] at hnone
  -- what the second part does not add, the first part does not add either
  have hfirst : (f s).warnings = s.warnings :=
    (hgrows.eq_of_length_le (by rw [← hnone]; exact hgrows'.length_le)).symm
  rw [Function.comp_apply, Function.comp_apply, hsame hfirst, hsame' (hnone.trans hfirst.symm)]

/-- One change after another, for each element of a list. -/
theorem foldl {α : Type} {f g : ScanState → α → ScanState}
    (h : ∀ x, Follows (fun s => f s x) (fun s => g s x)) (xs : List α) :
    Follows (fun s => xs.foldl f s) (fun s => xs.foldl g s) := by
  induction xs with
  | nil => exact .of_warnings fun _ => rfl
  | cons x xs ih => exact (h x).comp ih

end Follows

namespace Artwork

variable {art : Artwork}

section Step

variable {deeper deeper' : Option Nat → ScanState → ScanState}
  (h : ∀ first, Follows (deeper first) (deeper' first))

include h

theorem follows_usePattern (node handle : Nat) (role : PatternRole) :
    Follows (art.usePattern deeper node handle role) (art.usePattern deeper' node handle role) := by
  intro s
  unfold usePattern
  split
  · exact ⟨List.prefix_refl _, fun _ => rfl⟩
  next patterns _ =>
    obtain ⟨hgrows, hsame⟩ := h (art.patternContent handle)
      { s with patterns, firstUses := s.firstUses ++ [{ handle, node }], measure := {} }
    refine ⟨hgrows, fun hnone => ?_⟩
    dsimp only
    rw [hsame hnone]

theorem follows_scanKind (node : Nat) :
    Follows (art.scanKind deeper node) (art.scanKind deeper' node) := by
  unfold scanKind
  cases art.kind node with
  | plain => exact .of_warnings fun _ => rfl
  | symbol =>
    cases art.symbolPattern node with
    | none => exact .of_warnings fun _ => rfl
    | some handle => exact follows_usePattern h node handle .symbol
  | pluginGroup =>
    cases art.pluginResult node with
    | none => exact .of_warnings fun _ => rfl
    | some group => exact h (art.firstChild group)

theorem follows_scanPaint (node : Nat) (target : PaintTarget) :
    Follows (art.scanPaint deeper node target) (art.scanPaint deeper' node target) := by
  unfold scanPaint
  cases art.paint node target with
  | none => exact .of_warnings fun _ => rfl
  | solid => exact .of_warnings fun _ => rfl
  | gradient => exact .of_warnings fun _ => rfl
  | pattern handle =>
    have hneed : Follows (fun s => s.need { patterns := true })
        (fun s => s.need { patterns := true }) := .of_warnings fun _ => rfl
    exact (follows_usePattern h node handle .paint).comp hneed

theorem follows_scanNode (node : Nat) :
    Follows (art.scanNode deeper node) (art.scanNode deeper' node) := by
  have hvisit : Follows (fun s => s.visit node (art.bounds node))
      (fun s => s.visit node (art.bounds node)) := .of_warnings fun _ => rfl
  have hopacity : Follows (art.scanOpacity node) (art.scanOpacity node) := by
    refine .of_warnings fun s => ?_
    unfold scanOpacity
    split <;> rfl
  exact ((((hvisit.comp (follows_scanKind h node)).comp hopacity).comp
    (follows_scanPaint h node .fill)).comp (follows_scanPaint h node .stroke)).comp
      (h (art.firstChild node))

end Step

/-- Where there is no node, nothing is scanned. -/
theorem scanSiblings_none (maxDepth levels : Nat) : art.scanSiblings maxDepth levels none = id := by
  funext s
  cases levels <;> rfl

/-- With more levels the scan of a list of siblings follows the scan with fewer. -/
theorem follows_scanSiblings (maxDepth maxDepth' levels more : Nat) (first : Option Nat) :
    Follows (art.scanSiblings maxDepth levels first)
      (art.scanSiblings maxDepth' (levels + more) first) := by
  induction levels generalizing first with
  | zero =>
    cases first with
    | none =>
      rw [scanSiblings_none, scanSiblings_none]
      exact .of_warnings fun _ => rfl
    | some node =>
      intro s
      refine ⟨List.prefix_append _ _, fun hnone => ?_⟩
      -- without a level there is a warning
      have hlength := congrArg List.length hnone
      simp [scanSiblings, ScanState.warn] at hlength
  | succ levels ih =>
    rw [show levels + 1 + more = levels + more + 1 by omega]
    cases first with
    | none => exact .of_warnings fun _ => rfl
    | some node =>
      refine Follows.foldl (fun sibling => ?_) (art.siblings (some node))
      cases art.isHidden sibling with
      | true => exact .of_warnings fun _ => rfl
      | false => exact follows_scanNode ih sibling

/-- A layer is scanned before those above it. -/
theorem scanLayers_cons (maxDepth layer : Nat) (layers : List Nat) (s : ScanState) :
    art.scanLayers maxDepth (layer :: layers) s =
      ((art.scanLayer maxDepth layer s).1 ::
          (art.scanLayers maxDepth layers (art.scanLayer maxDepth layer s).2).1,
        (art.scanLayers maxDepth layers (art.scanLayer maxDepth layer s).2).2) := rfl

/-- Layers whose scan adds no warning are scanned in the same way with a higher limit. -/
theorem scanLayers_of_no_warnings {maxDepth maxDepth' : Nat} (hle : maxDepth ≤ maxDepth')
    (layers : List Nat) (s : ScanState) :
    s.warnings <+: (art.scanLayers maxDepth layers s).2.warnings ∧
      ((art.scanLayers maxDepth layers s).2.warnings = s.warnings →
        art.scanLayers maxDepth' layers s = art.scanLayers maxDepth layers s) := by
  induction layers generalizing s with
  | nil => exact ⟨List.prefix_refl _, fun _ => rfl⟩
  | cons layer layers ih =>
    obtain ⟨more, rfl⟩ := Nat.exists_eq_add_of_le hle
    obtain ⟨hgrows, hsame⟩ := art.follows_scanSiblings maxDepth (maxDepth + more) maxDepth more
      (art.firstArt layer) { s with measure := {} }
    change s.warnings <+: (art.scanLayer maxDepth layer s).2.warnings at hgrows
    obtain ⟨hgrows', hsame'⟩ := ih (art.scanLayer maxDepth layer s).2
    refine ⟨hgrows.trans hgrows', fun hnone => ?_⟩
    change (art.scanLayers maxDepth layers (art.scanLayer maxDepth layer s).2).2.warnings =
      s.warnings at hnone
    -- no layer adds a warning, so each one is scanned in the same way
    have hfirst : (art.scanLayer maxDepth layer s).2.warnings = s.warnings :=
      (hgrows.eq_of_length_le (by rw [← hnone]; exact hgrows'.length_le)).symm
    have hlayer : art.scanLayer (maxDepth + more) layer s = art.scanLayer maxDepth layer s := by
      rw [scanLayer, scanLayer, scanFrom, scanFrom, Nat.add_sub_cancel, Nat.add_sub_cancel,
        hsame hfirst]
    rw [scanLayers_cons, scanLayers_cons, hlayer, hsame' (hnone.trans hfirst.symm)]

/-- A scan that leaves nothing out is the scan for every higher limit. -/
theorem scan_of_no_warnings {maxDepth maxDepth' : Nat} (hle : maxDepth ≤ maxDepth')
    (hnone : (art.scan maxDepth).2.warnings = []) : art.scan maxDepth' = art.scan maxDepth :=
  (scanLayers_of_no_warnings hle art.visibleLayers {}).2 hnone

end Artwork

end ArtCanvas
