import ArtCanvas.Proofs.Artwork.Sight
import ArtCanvas.Proofs.Compile.Dependence
import ArtCanvas.Proofs.Scan.Measure

/-!
# The compiler looks at what is in sight

Each function of the scan, and the search for outlines, decides on its own what it skips. None of
them looks at more of the art than what is in sight, so art with the same in sight is compiled to
the same document.

* `SameSight.scan_eq`: both pieces of art are scanned alike.
* `SameSight.findPath_eq`: the same outlines are found in them.
* `SameSight.compile_eq`: they are compiled to the same document, or fail with the same error.
-/

namespace ArtCanvas

namespace Artwork

namespace SameSight

variable {art art' : Artwork} (h : art.SameSight art')

include h

/-- Both pieces of art have the same patterns. -/
theorem patternContent (handle : Nat) : art.patternContent handle = art'.patternContent handle :=
  congrArg PatternSource.content (h.patternSource handle)

section Step

variable {deeper deeper' : Option Nat → ScanState → ScanState}
  (hdeeper : ∀ first, art.SightFrom first → deeper first = deeper' first)

include hdeeper

/-- A pattern is used alike. -/
theorem usePattern_eq (node handle : Nat) (role : PatternRole) :
    art.usePattern deeper node handle role = art'.usePattern deeper' node handle role := by
  funext s
  unfold usePattern
  rw [← h.patternSource, ← h.patternContent, hdeeper _ (sightFrom_patternContent handle)]

variable {node : Nat} (hsight : art.InSight node) (hvisible : art.isHidden node = false)

include hsight hvisible

/-- A node is scanned alike by its kind. -/
theorem scanKind_eq : art.scanKind deeper node = art'.scanKind deeper' node := by
  have hnode := h.sameNode node hsight hvisible
  funext s
  unfold scanKind
  rw [← hnode.kind, ← hnode.symbolPattern, ← hnode.pluginResult]
  cases hkind : art.kind node with
  | plain => rfl
  | symbol =>
    cases art.symbolPattern node with
    | none => rfl
    | some handle => exact congrFun (h.usePattern_eq hdeeper node handle .symbol) s
  | pluginGroup =>
    cases hgroup : art.pluginResult node with
    | none => rfl
    | some group =>
      -- what is below the result is in sight, while the result itself need not be
      have hbelow := hdeeper _ (hsight.sightFrom_group hvisible hkind hgroup)
      rw [h.group node group hsight hvisible hkind hgroup] at hbelow
      simp only [h.group node group hsight hvisible hkind hgroup, hbelow]

/-- Paints are scanned alike. -/
theorem scanPaint_eq (target : PaintTarget) :
    art.scanPaint deeper node target = art'.scanPaint deeper' node target := by
  have hnode := h.sameNode node hsight hvisible
  funext s
  unfold scanPaint
  rw [← hnode.paint]
  cases art.paint node target with
  | pattern handle => simp only [h.usePattern_eq hdeeper node handle .paint]
  | none | solid | gradient => rfl

/-- A node in sight is scanned alike. -/
theorem scanNode_eq : art.scanNode deeper node = art'.scanNode deeper' node := by
  have hnode := h.sameNode node hsight hvisible
  have hopacity : art.scanOpacity node = art'.scanOpacity node := by
    funext s
    unfold scanOpacity
    rw [hnode.opacity]
  have hbelow := hdeeper _ (hsight.sightFrom_child hvisible)
  funext s
  unfold scanNode
  rw [h.scanKind_eq hdeeper hsight hvisible, hopacity, h.scanPaint_eq hdeeper hsight hvisible,
    h.scanPaint_eq hdeeper hsight hvisible, hbelow, hnode.bounds, hnode.firstChild]

end Step

/-- Lists of siblings that are in sight are scanned alike. -/
theorem scanSiblings_eq (maxDepth levels : Nat) {first : Option Nat}
    (hfirst : art.SightFrom first) :
    art.scanSiblings maxDepth levels first = art'.scanSiblings maxDepth levels first := by
  -- on the levels: what is below a node is scanned with one level less
  induction levels generalizing first with
  | zero =>
    cases first with
    | none => rfl
    | some node => rfl
  | succ levels ih =>
    cases first with
    | none => rfl
    | some node =>
      funext s
      rw [scanSiblings, scanSiblings, ← h.siblings _ hfirst]
      refine List.foldl_ext _ _ _ fun s sibling hsibling => ?_
      have hsight := hfirst.of_mem_siblings hsibling
      -- a hidden node is skipped before anything else of it is read
      rw [← h.isHidden sibling hsight]
      cases hhidden : art.isHidden sibling with
      | true => rw [if_pos rfl, if_pos rfl]
      | false =>
        rw [if_neg Bool.false_ne_true, if_neg Bool.false_ne_true,
          h.scanNode_eq (fun _ => ih) hsight hhidden]

/-- Visible layers are scanned alike. -/
theorem scanLayers_eq (maxDepth : Nat) {layers : List Nat} (hlayers : layers ⊆ art.visibleLayers)
    (s : ScanState) : art.scanLayers maxDepth layers s = art'.scanLayers maxDepth layers s := by
  induction layers generalizing s with
  | nil => rfl
  | cons layer layers ih =>
    have hvisible := hlayers List.mem_cons_self
    have hlayer : art.scanLayer maxDepth layer = art'.scanLayer maxDepth layer := by
      funext s
      unfold scanLayer scanFrom
      dsimp only
      rw [← h.layerName layer hvisible, ← h.firstArt layer hvisible,
        h.scanSiblings_eq _ _ (sightFrom_firstArt hvisible)]
    rw [scanLayers, scanLayers, hlayer]
    dsimp only
    rw [ih fun _ hmem => hlayers (List.mem_cons_of_mem _ hmem)]

/-- Both pieces of art are scanned alike. -/
theorem scan_eq (maxDepth : Nat) : art.scan maxDepth = art'.scan maxDepth := by
  rw [scan, scan, ← h.visibleLayers]
  exact h.scanLayers_eq maxDepth (List.Subset.refl _) {}

/-- The same outline is found. -/
theorem findPath_eq (levels : Nat) {first : Option Nat} (hfirst : art.SightFrom first) :
    art.findPath levels first = art'.findPath levels first := by
  induction levels generalizing first with
  | zero => rfl
  | succ levels ih =>
    rw [findPath, findPath, ← h.siblings _ hfirst, ← List.head?_filterMap, ← List.head?_filterMap]
    refine congrArg List.head? (List.filterMap_congr fun sibling hsibling => ?_)
    have hsight := hfirst.of_mem_siblings hsibling
    rw [← h.isHidden sibling hsight]
    cases hhidden : art.isHidden sibling with
    | true => rw [if_pos rfl, if_pos rfl]
    | false =>
      have hnode := h.sameNode sibling hsight hhidden
      rw [if_neg Bool.false_ne_true, if_neg Bool.false_ne_true, ← hnode.path, ← hnode.firstChild,
        ih (hsight.sightFrom_child hhidden)]

/-- Art with the same in sight is compiled to the same document, or fails with the same error. -/
theorem compile_eq [CurveLibrary] (options : CompileOptions) :
    art.compile options = art'.compile options := by
  refine compile_congr rfl (h.scan_eq options.maxDepth) fun layer hlayer => ?_
  rw [scan_fst] at hlayer
  obtain ⟨visible, hvisible, rfl⟩ := List.mem_map.mp hlayer
  exact h.findPath_eq options.maxDepth (sightFrom_firstArt hvisible)

end SameSight

end Artwork

end ArtCanvas
