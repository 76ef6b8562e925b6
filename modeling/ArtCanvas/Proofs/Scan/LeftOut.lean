import ArtCanvas.Proofs.Scan.Visits

/-!
# What a scan leaves out

A scan that has no level left leaves out the art that it comes to, with a warning, unless there is
none. What it leaves out is named by first nodes: those of layers, if there is no level at all, and
those of the art below the nodes on the last level, or of the patterns that these use first.

* `Artwork.LeftOut`: the first nodes of the art that is left out, in terms of depths.
* `Artwork.mem_skipped_iff`: they are found below the last stops of tours.
* `WellLinked.exists_leftOut`: there is one warning for each of them.
-/

namespace ArtCanvas

/-- The node is the first one of a piece of art that lies below the limit: that of a layer, if
nothing lies within the limit, or the art one level below a node that is visited on the last level.
-/
inductive Artwork.LeftOut (art : Artwork) (maxDepth : Nat) (uses : List PatternUse) : Nat → Prop
  | layer {layer head : Nat} : maxDepth = 0 → layer ∈ art.visibleLayers →
      art.firstArt layer = some head → LeftOut art maxDepth uses head
  | child {node head : Nat} : art.VisitedAt maxDepth uses node maxDepth →
      art.firstChild node = some head → LeftOut art maxDepth uses head
  | result {node group head : Nat} : art.VisitedAt maxDepth uses node maxDepth →
      art.kind node = .pluginGroup → art.pluginResult node = some group →
      art.firstChild group = some head → LeftOut art maxDepth uses head
  | content {use : PatternUse} {head : Nat} : use ∈ uses →
      art.VisitedAt maxDepth uses use.node maxDepth → art.patternContent use.handle = some head →
      LeftOut art maxDepth uses head

namespace Artwork

variable {art : Artwork}

/-- What is left out on a tour lies below the last stops, or the tour does not even begin. -/
theorem mem_skipped_iff {levels head : Nat} {first : Option Nat} :
    head ∈ art.skipped levels first ↔ (levels = 0 ∧ first = some head) ∨
      ∃ node, (node, 0) ∈ art.tourAt levels first ∧
        (art.resultArt node = some head ∨ art.firstChild node = some head) := by
  induction levels generalizing first with
  | zero => simp [skipped, tourAt, Option.mem_toList]
  | succ levels ih =>
    rw [tourAt_succ, skipped]
    simp only [List.mem_flatMap, Nat.succ_ne_zero, false_and, false_or]
    constructor
    · rintro ⟨sibling, hsibling, hhead⟩
      cases hvisible : art.isHidden sibling with
      | true => simp [hvisible] at hhead
      | false =>
        simp only [hvisible, Bool.false_eq_true, if_false, List.mem_append, ih] at hhead
        have hstop : ∀ stop, (stop = (sibling, levels) ∨
            stop ∈ art.tourAt levels (art.resultArt sibling) ∨
            stop ∈ art.tourAt levels (art.firstChild sibling)) →
            ∃ a ∈ art.siblings first, stop ∈ art.tourNode levels a := by
          intro stop hmem
          exact ⟨sibling, hsibling, by simpa [tourNode, hvisible] using hmem⟩
        -- on the last level the sibling itself is the last stop
        rcases hhead with (⟨rfl, hhead⟩ | ⟨node, hnode, hhead⟩) |
          (⟨rfl, hhead⟩ | ⟨node, hnode, hhead⟩)
        · exact ⟨sibling, hstop _ (Or.inl rfl), Or.inl hhead⟩
        · exact ⟨node, hstop _ (Or.inr (Or.inl hnode)), hhead⟩
        · exact ⟨sibling, hstop _ (Or.inl rfl), Or.inr hhead⟩
        · exact ⟨node, hstop _ (Or.inr (Or.inr hnode)), hhead⟩
    · rintro ⟨node, ⟨sibling, hsibling, hnode⟩, hhead⟩
      refine ⟨sibling, hsibling, ?_⟩
      cases hvisible : art.isHidden sibling with
      | true => simp [tourNode, hvisible] at hnode
      | false =>
        simp only [tourNode, hvisible, Bool.false_eq_true, if_false, List.mem_cons,
          Prod.mk.injEq, List.mem_append] at hnode
        simp only [Bool.false_eq_true, if_false, List.mem_append, ih]
        rcases hnode with ⟨rfl, rfl⟩ | hresult | hchild
        · rcases hhead with hhead | hhead
          · exact Or.inl (Or.inl ⟨rfl, hhead⟩)
          · exact Or.inr (Or.inl ⟨rfl, hhead⟩)
        · exact Or.inl (Or.inr ⟨node, hresult, hhead⟩)
        · exact Or.inr (Or.inr ⟨node, hchild, hhead⟩)

/-- What all tours of a scan leave out together: art that they do not even begin with, and art below
their last stops. -/
theorem mem_skipped_iff_below {maxDepth head : Nat} {regs : List Registration} :
    head ∈ (art.visibleLayers.flatMap fun layer => art.skipped maxDepth (art.firstArt layer)) ++
        regs.flatMap art.contentSkipped ↔
      (maxDepth = 0 ∧ ∃ layer ∈ art.visibleLayers, art.firstArt layer = some head) ∨
        (∃ r ∈ regs, r.levels = 0 ∧ art.patternContent r.handle = some head) ∨
        ∃ node, (node, 0) ∈ art.stops maxDepth regs ∧
          (art.resultArt node = some head ∨ art.firstChild node = some head) := by
  simp only [stops, layerTours, contentTour, contentSkipped, List.mem_append, List.mem_flatMap,
    mem_skipped_iff]
  constructor
  · rintro (⟨layer, hlayer, ⟨hzero, hhead⟩ | ⟨node, hstop, hhead⟩⟩ |
      ⟨r, hr, ⟨hzero, hhead⟩ | ⟨node, hstop, hhead⟩⟩)
    · exact Or.inl ⟨hzero, layer, hlayer, hhead⟩
    · exact Or.inr (Or.inr ⟨node, Or.inl ⟨layer, hlayer, hstop⟩, hhead⟩)
    · exact Or.inr (Or.inl ⟨r, hr, hzero, hhead⟩)
    · exact Or.inr (Or.inr ⟨node, Or.inr ⟨r, hr, hstop⟩, hhead⟩)
  · rintro (⟨hzero, layer, hlayer, hhead⟩ | ⟨r, hr, hzero, hhead⟩ |
      ⟨node, ⟨layer, hlayer, hstop⟩ | ⟨r, hr, hstop⟩, hhead⟩)
    · exact Or.inl ⟨layer, hlayer, Or.inl ⟨hzero, hhead⟩⟩
    · exact Or.inr ⟨r, hr, Or.inl ⟨hzero, hhead⟩⟩
    · exact Or.inl ⟨layer, hlayer, Or.inr ⟨node, hstop, hhead⟩⟩
    · exact Or.inr ⟨r, hr, Or.inr ⟨node, hstop, hhead⟩⟩

end Artwork

namespace ArtDocument

variable {doc : ArtDocument}

namespace WellLinked

variable [CurveLibrary] (h : doc.WellLinked)

include h

/-- What is left out behind a walk lies behind it. -/
theorem behind_of_mem_skipped {levels head : Nat} {root : Root} {hops : List Hop}
    (hmem : head ∈ doc.view.skipped levels (doc.view.walk root hops)) :
    doc.view.Behind root hops head := by
  rcases Artwork.mem_skipped_iff.mp hmem with ⟨-, hw⟩ | ⟨node, hstop, hhead⟩
  · exact ⟨[], hw⟩
  · obtain ⟨more, hw⟩ := h.behind_of_mem_tourAt hstop
    rcases hhead with hresult | hchild
    · obtain ⟨-, group, hgroup, hhead⟩ := Artwork.resultArt_eq_some_iff.mp hresult
      refine ⟨.child :: .result :: more, ?_⟩
      rw [List.cons_append, List.cons_append, Artwork.walk_result_child hw, hgroup,
        Option.bind_some, hhead]
    · refine ⟨.child :: more, ?_⟩
      rw [List.cons_append, Artwork.walk_child hw, hchild]

/-- Nothing is left out twice on a tour. -/
theorem nodup_skipped (levels : Nat) (root : Root) (hops : List Hop) :
    (doc.view.skipped levels (doc.view.walk root hops)).Nodup := by
  induction levels, root, hops using h.walk_induction with
  | zero root hops =>
    rw [Artwork.skipped]
    cases doc.view.walk root hops <;> simp
  | nowhere levels root hops hw => simp [hw]
  | node levels root hops node hw ihResult ihChild ihSibling =>
    have hwalk : doc.view.skipped (levels + 1) (doc.view.walk root hops) =
        (if doc.view.isHidden node then [] else
          doc.view.skipped levels (doc.view.resultArt node) ++
            doc.view.skipped levels (doc.view.walk root (.child :: hops))) ++
          doc.view.skipped (levels + 1) (doc.view.walk root (.sibling :: hops)) := by
      rw [hw, Artwork.walk_sibling hw, Artwork.walk_child hw, Artwork.skipped,
        h.siblings_of_walk hw, List.flatMap_cons, ← Artwork.skipped]
    -- what lies behind the result, the first child and the next sibling has nothing in common
    have hresult : (doc.view.skipped levels (doc.view.resultArt node)).Nodup ∧
        ∀ head ∈ doc.view.skipped levels (doc.view.resultArt node),
          doc.view.Behind root (.result :: hops) head := by
      rcases resultArt_of_walk hw with hnone | hart
      · simp [hnone]
      · rw [hart]
        exact ⟨ihResult, fun head hhead => (h.behind_of_mem_skipped hhead).of_cons⟩
    rw [hwalk]
    refine List.Nodup.append ?_ ihSibling fun head hhead hlater => ?_
    · split
      · exact List.nodup_nil
      · refine hresult.1.append ihChild fun head hhead hhead' => ?_
        cases h.behind_disjoint (hresult.2 head hhead) (h.behind_of_mem_skipped hhead')
    · have hlater := h.behind_of_mem_skipped hlater
      split at hhead
      · cases hhead
      · rcases List.mem_append.mp hhead with hhead | hhead
        · cases h.behind_disjoint hlater (hresult.2 head hhead)
        · cases h.behind_disjoint hlater (h.behind_of_mem_skipped hhead)

/-- What is left out behind different roots has nothing in common. -/
theorem disjoint_skipped {levels levels' : Nat} {root root' : Root} (hne : root ≠ root') :
    (doc.view.skipped levels (doc.view.rootNode root)).Disjoint
      (doc.view.skipped levels' (doc.view.rootNode root')) := by
  intro head hmem hmem'
  rw [← Artwork.walk_nil] at hmem hmem'
  obtain ⟨more, hmore⟩ := h.behind_of_mem_skipped hmem
  obtain ⟨more', hmore'⟩ := h.behind_of_mem_skipped hmem'
  exact hne (h.walk_unique hmore hmore').1

/-- What a scan leaves out lies below its last level. -/
theorem mem_skipped_iff_leftOut {maxDepth : Nat} {out : List Nat} {regs : List Registration}
    {s : ScanState}
    (heffect : Effect doc.view maxDepth maxDepth
      (doc.view.layerTours maxDepth doc.view.visibleLayers)
      (doc.view.layerTours maxDepth doc.view.visibleLayers) out regs {} s) {head : Nat} :
    head ∈ (doc.view.visibleLayers.flatMap fun layer =>
        doc.view.skipped maxDepth (doc.view.firstArt layer)) ++
          regs.flatMap doc.view.contentSkipped ↔
      doc.view.LeftOut maxDepth (regs.map Registration.toPatternUse) head := by
  -- the last stops of the scan are the nodes that are visited on the last level
  have hlast : ∀ node, (node, 0) ∈ doc.view.stops maxDepth regs ↔
      doc.view.VisitedAt maxDepth (regs.map Registration.toPatternUse) node maxDepth := by
    intro node
    rw [h.mem_stops_iff heffect, Nat.sub_zero]
    exact ⟨fun hstop => hstop.2, fun hvisited => ⟨hvisited.depth_le.1, hvisited⟩⟩
  rw [Artwork.mem_skipped_iff_below]
  constructor
  · rintro (⟨hzero, layer, hlayer, hhead⟩ | ⟨r, hr, hzero, hhead⟩ |
      ⟨node, hstop, hresult | hchild⟩)
    · exact .layer hzero hlayer hhead
    · obtain ⟨-, hvisited⟩ := h.visitedAt_of_registered (heffect.registered r hr)
      rw [hzero, Nat.sub_zero] at hvisited
      exact .content (List.mem_map.mpr ⟨r, hr, rfl⟩) hvisited hhead
    · obtain ⟨hkind, group, hgroup, hhead⟩ := Artwork.resultArt_eq_some_iff.mp hresult
      exact .result ((hlast node).mp hstop) hkind hgroup hhead
    · exact .child ((hlast node).mp hstop) hchild
  · intro hleft
    cases hleft with
    | layer hzero hlayer hhead => exact Or.inl ⟨hzero, _, hlayer, hhead⟩
    | @child node _ hvisited hhead =>
      exact Or.inr (Or.inr ⟨node, (hlast node).mpr hvisited, Or.inr hhead⟩)
    | @result node _ _ hvisited hkind hgroup hhead =>
      have hresult := Artwork.resultArt_eq_some_iff.mpr ⟨hkind, _, hgroup, hhead⟩
      exact Or.inr (Or.inr ⟨node, (hlast node).mpr hvisited, Or.inl hresult⟩)
    | content huse hvisited hhead =>
      obtain ⟨r, hr, rfl⟩ := List.mem_map.mp huse
      -- the pattern was registered on the last level, so none was left for its art
      obtain ⟨hlt, hvisited'⟩ := h.visitedAt_of_registered (heffect.registered r hr)
      have hdistinct : ((regs.map Registration.toPatternUse).map PatternUse.handle).Nodup := by
        rw [List.map_map]
        exact heffect.distinct
      have hdepth := h.visitedAt_unique hdistinct hvisited hvisited'
      exact Or.inr (Or.inl ⟨r, hr, by omega, hhead⟩)

/-- A scan warns once for each piece of art that it leaves out, and for nothing else. -/
theorem exists_leftOut (maxDepth : Nat) :
    ∃ heads : List Nat, heads.Nodup ∧
      (∀ head, head ∈ heads ↔
        doc.view.LeftOut maxDepth (doc.view.scan maxDepth).2.firstUses head) ∧
      (doc.view.scan maxDepth).2.warnings = List.replicate heads.length (.tooDeep maxDepth) := by
  obtain ⟨regs, heffect⟩ := doc.view.effect_scan maxDepth
  have huses : (doc.view.scan maxDepth).2.firstUses = regs.map Registration.toPatternUse :=
    heffect.firstUses
  rw [huses]
  refine ⟨_, ?_, fun head => h.mem_skipped_iff_leftOut heffect, heffect.warnings⟩
  have hnodup : ((doc.view.starts maxDepth regs).flatMap fun start =>
      doc.view.skipped start.2 (doc.view.rootNode start.1)).Nodup := by
    rw [List.nodup_flatMap]
    exact ⟨fun start _ => h.nodup_skipped start.2 start.1 [], (List.pairwise_map.mp
      (doc.view.nodup_starts maxDepth heffect.distinct)).imp fun hne => h.disjoint_skipped hne⟩
  rwa [Artwork.starts, List.flatMap_append, List.flatMap_map, List.flatMap_map] at hnodup

end WellLinked

end ArtDocument

end ArtCanvas
