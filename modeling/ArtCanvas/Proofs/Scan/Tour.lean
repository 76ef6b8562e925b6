import ArtCanvas.Compile.Scan
import ArtCanvas.Proofs.Artwork.Walks

/-!
# Tours

A scan mixes two things: it goes around a piece of art, and it registers patterns, whose art it
scans in between. This module describes the way around on its own, as functions of the art that keep
no state.

* `Artwork.tour levels first`: the nodes that a scan visits from `first` on, art of patterns apart.
* `Artwork.skipped levels first`: where it would have gone on with more levels.
* `Artwork.Passes`: the same way around as a relation between nodes and depths, without any bound on
  lists of siblings.

For documents whose links are sound, a tour visits no node twice (`nodup_tour`), tours from
different roots have no node in common (`disjoint_tour`), and tours visit exactly the nodes of
`Passes` that are not hidden (`mem_tourAt_iff`).
-/

namespace ArtCanvas

namespace Artwork

section Tour

variable (art : Artwork)

/-- The first node of the art that a plugin group shows. -/
def resultArt (node : Nat) : Option Nat :=
  match art.kind node with
  | .pluginGroup => (art.pluginResult node).bind art.firstChild
  | .plain | .symbol => none

/-- The nodes that a scan visits from `first` on when `levels` levels are left, each with the levels
that are left below it. Art of patterns is not among them. -/
def tourAt : Nat → Option Nat → List (Nat × Nat)
  | 0, _ => []
  | levels + 1, first =>
    (art.siblings first).flatMap fun node =>
      if art.isHidden node then []
      else (node, levels) ::
        (tourAt levels (art.resultArt node) ++ tourAt levels (art.firstChild node))

/-- The nodes that a scan visits from `first` on, in the order of the visits. -/
def tour (levels : Nat) (first : Option Nat) : List Nat := (art.tourAt levels first).map Prod.fst

/-- The part of a tour that belongs to one node: the node and what is below it. -/
def tourNode (levels node : Nat) : List (Nat × Nat) :=
  if art.isHidden node then []
  else (node, levels) ::
    (art.tourAt levels (art.resultArt node) ++ art.tourAt levels (art.firstChild node))

/-- The first nodes of the art that a scan leaves out because no level is left. -/
def skipped : Nat → Option Nat → List Nat
  | 0, first => first.toList
  | levels + 1, first =>
    (art.siblings first).flatMap fun node =>
      if art.isHidden node then []
      else skipped levels (art.resultArt node) ++ skipped levels (art.firstChild node)

/-- `node` stands at `depth` on the way around the art that starts at `first`, at depth `start`:
along the siblings, hidden ones included, and one level deeper into the children and into the art of
a plugin group, but not below hidden nodes and never deeper than `maxDepth`. -/
inductive Passes (maxDepth : Nat) (first : Option Nat) (start : Nat) : Nat → Nat → Prop
  | first {node : Nat} : first = some node → start ≤ maxDepth →
      Passes maxDepth first start node start
  | sibling {node next depth : Nat} : Passes maxDepth first start node depth →
      art.nextSibling node = some next → Passes maxDepth first start next depth
  | child {node below depth : Nat} : Passes maxDepth first start node depth →
      art.isHidden node = false → art.firstChild node = some below → depth + 1 ≤ maxDepth →
      Passes maxDepth first start below (depth + 1)
  | result {node group below depth : Nat} : Passes maxDepth first start node depth →
      art.isHidden node = false → art.kind node = .pluginGroup →
      art.pluginResult node = some group → art.firstChild group = some below →
      depth + 1 ≤ maxDepth → Passes maxDepth first start below (depth + 1)

/-- `node` is visited at `depth`: the way around comes to it, and it is not hidden. -/
def Visits (maxDepth : Nat) (first : Option Nat) (start node depth : Nat) : Prop :=
  art.Passes maxDepth first start node depth ∧ art.isHidden node = false

end Tour

variable {art : Artwork}

theorem tourAt_succ (levels : Nat) (first : Option Nat) :
    art.tourAt (levels + 1) first = (art.siblings first).flatMap (art.tourNode levels) := rfl

@[simp]
theorem siblings_none : art.siblings none = [] := rfl

@[simp]
theorem tourAt_none (levels : Nat) : art.tourAt levels none = [] := by
  cases levels <;> simp [tourAt]

@[simp]
theorem skipped_none (levels : Nat) : art.skipped levels none = [] := by
  cases levels <;> simp [skipped]

/-- The art of a plugin group is the way through its result. -/
theorem resultArt_eq_some_iff {node below : Nat} :
    art.resultArt node = some below ↔
      art.kind node = .pluginGroup ∧
        ∃ group, art.pluginResult node = some group ∧ art.firstChild group = some below := by
  unfold resultArt
  cases art.kind node <;> simp [Option.bind_eq_some_iff]

/-- The way around only gets deeper, within the limit. -/
theorem Passes.depth_le {maxDepth start node depth : Nat} {first : Option Nat}
    (h : art.Passes maxDepth first start node depth) : start ≤ depth ∧ depth ≤ maxDepth := by
  induction h with
  | first _ hstart => exact ⟨le_rfl, hstart⟩
  | sibling _ _ ih => exact ih
  | child _ _ _ hle ih => exact ⟨by omega, hle⟩
  | result _ _ _ _ _ hle ih => exact ⟨by omega, hle⟩

/-- The way around from a node on the way is part of the way. -/
theorem Passes.trans {maxDepth start middle node between depth : Nat} {first : Option Nat}
    (h : art.Passes maxDepth first start middle between)
    (h' : art.Passes maxDepth (some middle) between node depth) :
    art.Passes maxDepth first start node depth := by
  induction h' with
  | first heq _ =>
    cases heq
    exact h
  | sibling _ hnext ih => exact ih.sibling hnext
  | child _ hhidden hbelow hle ih => exact ih.child hhidden hbelow hle
  | result _ hhidden hkind hgroup hbelow hle ih => exact ih.result hhidden hkind hgroup hbelow hle

/-- What is visited on the way around from a node on the way is visited on the way. -/
theorem Passes.visits {maxDepth start middle node between depth : Nat} {first : Option Nat}
    (h : art.Passes maxDepth first start middle between)
    (h' : art.Visits maxDepth (some middle) between node depth) :
    art.Visits maxDepth first start node depth := ⟨h.trans h'.1, h'.2⟩

/-- The node lies behind a walk: the walk can be continued to it. -/
def Behind (art : Artwork) (root : Root) (hops : List Hop) (node : Nat) : Prop :=
  ∃ more, art.walk root (more ++ hops) = some node

/-- What lies behind a longer walk lies behind the shorter one. -/
theorem Behind.of_cons {root : Root} {hops : List Hop} {hop : Hop} {node : Nat}
    (h : art.Behind root (hop :: hops) node) : art.Behind root hops node := by
  obtain ⟨more, hmore⟩ := h
  exact ⟨more ++ [hop], by rw [List.append_assoc]; exact hmore⟩

end Artwork

namespace ArtDocument

variable [CurveLibrary] {doc : ArtDocument}

/-- The art of a plugin group, where there is any, is behind its result. -/
theorem resultArt_of_walk {root : Root} {hops : List Hop} {node : Nat}
    (hw : doc.view.walk root hops = some node) :
    doc.view.resultArt node = none ∨
      doc.view.resultArt node = doc.view.walk root (.child :: .result :: hops) := by
  rw [Artwork.walk_result_child hw, Artwork.resultArt]
  cases doc.view.kind node with
  | plain => exact Or.inl rfl
  | symbol => exact Or.inl rfl
  | pluginGroup => exact Or.inr rfl

theorem mem_tourAt_resultArt {root : Root} {hops : List Hop} {node levels : Nat} {stop : Nat × Nat}
    (hw : doc.view.walk root hops = some node)
    (hmem : stop ∈ doc.view.tourAt levels (doc.view.resultArt node)) :
    stop ∈ doc.view.tourAt levels (doc.view.walk root (.child :: .result :: hops)) := by
  rcases resultArt_of_walk hw with hnone | hwalk
  · simp [hnone] at hmem
  · rwa [← hwalk]

namespace WellLinked

variable (h : doc.WellLinked)

include h

/-- Induction along the way around art: a statement about the art behind a walk, for a number of
levels, follows from the same statement about the siblings that are left, and about the children and
the result with one level less. -/
theorem walk_induction {motive : Nat → Root → List Hop → Prop}
    (zero : ∀ root hops, motive 0 root hops)
    (nowhere : ∀ levels root hops, doc.view.walk root hops = none → motive (levels + 1) root hops)
    (node : ∀ levels root hops node, doc.view.walk root hops = some node →
      motive levels root (.child :: .result :: hops) → motive levels root (.child :: hops) →
      motive (levels + 1) root (.sibling :: hops) → motive (levels + 1) root hops)
    (levels : Nat) (root : Root) (hops : List Hop) : motive levels root hops := by
  induction levels generalizing root hops with
  | zero => exact zero root hops
  | succ levels ih =>
    -- the siblings run out because walks are shorter than the number of nodes
    induction hn : doc.nodes.size - hops.length generalizing hops with
    | zero => exact nowhere levels root hops (h.walk_eq_none (by omega))
    | succ n ihn =>
      cases hw : doc.view.walk root hops with
      | none => exact nowhere levels root hops hw
      | some first =>
        exact node levels root hops first hw (ih root _) (ih root _)
          (ihn (.sibling :: hops) (by rw [List.length_cons]; omega))

/-- A tour goes around the first node and then along the siblings. -/
theorem tourAt_of_walk {root : Root} {hops : List Hop} {node : Nat}
    (hw : doc.view.walk root hops = some node) (levels : Nat) :
    doc.view.tourAt (levels + 1) (doc.view.walk root hops) =
      doc.view.tourNode levels node ++
        doc.view.tourAt (levels + 1) (doc.view.walk root (.sibling :: hops)) := by
  rw [hw, Artwork.walk_sibling hw, Artwork.tourAt_succ, h.siblings_of_walk hw,
    List.flatMap_cons, ← Artwork.tourAt_succ]

/-- What a tour meets around its first node: the node, the art of a plugin group, the children, and
then the siblings. -/
theorem mem_tourAt_of_walk {root : Root} {hops : List Hop} {node levels : Nat} {stop : Nat × Nat}
    (hw : doc.view.walk root hops = some node) :
    stop ∈ doc.view.tourAt (levels + 1) (doc.view.walk root hops) ↔
      (doc.view.isHidden node = false ∧ (stop = (node, levels) ∨
        stop ∈ doc.view.tourAt levels (doc.view.resultArt node) ∨
        stop ∈ doc.view.tourAt levels (doc.view.walk root (.child :: hops)))) ∨
      stop ∈ doc.view.tourAt (levels + 1) (doc.view.walk root (.sibling :: hops)) := by
  rw [h.tourAt_of_walk hw, List.mem_append, Artwork.tourNode, Artwork.walk_child hw]
  cases doc.view.isHidden node <;> simp

/-- What a tour visits lies behind the walk to where it starts. -/
theorem behind_of_mem_tourAt {levels : Nat} {root : Root} {hops : List Hop} {stop : Nat × Nat}
    (hmem : stop ∈ doc.view.tourAt levels (doc.view.walk root hops)) :
    doc.view.Behind root hops stop.1 := by
  induction levels, root, hops using h.walk_induction with
  | zero => simp [Artwork.tourAt] at hmem
  | nowhere levels root hops hw => simp [hw] at hmem
  | node levels root hops node hw ihResult ihChild ihSibling =>
    rcases (h.mem_tourAt_of_walk hw).mp hmem with ⟨-, rfl | hresult | hchild⟩ | hlater
    · exact ⟨[], hw⟩
    · exact (ihResult (mem_tourAt_resultArt hw hresult)).of_cons.of_cons
    · exact (ihChild hchild).of_cons
    · exact (ihSibling hlater).of_cons

theorem behind_of_mem_tour {levels : Nat} {root : Root} {hops : List Hop} {node : Nat}
    (hmem : node ∈ doc.view.tour levels (doc.view.walk root hops)) :
    doc.view.Behind root hops node := by
  obtain ⟨stop, hstop, rfl⟩ := List.mem_map.mp hmem
  exact h.behind_of_mem_tourAt hstop

/-- Behind different links of a node lie different nodes. -/
theorem behind_disjoint {root : Root} {hops : List Hop} {hop hop' : Hop} {node : Nat}
    (hb : doc.view.Behind root (hop :: hops) node)
    (hb' : doc.view.Behind root (hop' :: hops) node) : hop = hop' := by
  obtain ⟨more, hmore⟩ := hb
  obtain ⟨more', hmore'⟩ := hb'
  obtain ⟨-, heq⟩ := h.walk_unique hmore hmore'
  have hlast := (List.append_inj' heq rfl).2
  exact (List.cons.inj hlast).1

/-- A node does not lie behind its own links. -/
theorem not_behind_self {root : Root} {hops : List Hop} {hop : Hop} {node : Nat}
    (hw : doc.view.walk root hops = some node) : ¬ doc.view.Behind root (hop :: hops) node := by
  rintro ⟨more, hmore⟩
  obtain ⟨-, heq⟩ := h.walk_unique hmore hw
  have hlength := congrArg List.length heq
  rw [List.length_append, List.length_cons] at hlength
  omega

/-- The art of a plugin group lies behind its result. -/
theorem behind_of_mem_resultArt {levels : Nat} {root : Root} {hops : List Hop} {node : Nat}
    {stop : Nat × Nat} (hw : doc.view.walk root hops = some node)
    (hmem : stop ∈ doc.view.tourAt levels (doc.view.resultArt node)) :
    doc.view.Behind root (.result :: hops) stop.1 :=
  (h.behind_of_mem_tourAt (mem_tourAt_resultArt hw hmem)).of_cons

/-- What belongs to a node is the node itself, or lies behind its result or its first child. -/
theorem behind_of_mem_tourNode {levels : Nat} {root : Root} {hops : List Hop} {node : Nat}
    {stop : Nat × Nat} (hw : doc.view.walk root hops = some node)
    (hmem : stop ∈ doc.view.tourNode levels node) :
    stop.1 = node ∨ doc.view.Behind root (.result :: hops) stop.1 ∨
      doc.view.Behind root (.child :: hops) stop.1 := by
  rw [Artwork.tourNode] at hmem
  split at hmem
  · cases hmem
  · rcases List.mem_cons.mp hmem with rfl | hbelow
    · exact Or.inl rfl
    · rcases List.mem_append.mp hbelow with hresult | hchild
      · exact Or.inr (Or.inl (h.behind_of_mem_resultArt hw hresult))
      · rw [← Artwork.walk_child hw] at hchild
        exact Or.inr (Or.inr (h.behind_of_mem_tourAt hchild))

/-- What belongs to a node is visited once, if that holds for the art of a plugin group and for the
children. -/
theorem nodup_tourNode {levels : Nat} {root : Root} {hops : List Hop} {node : Nat}
    (hw : doc.view.walk root hops = some node)
    (hresult : (doc.view.tour levels (doc.view.walk root (.child :: .result :: hops))).Nodup)
    (hchild : (doc.view.tour levels (doc.view.walk root (.child :: hops))).Nodup) :
    ((doc.view.tourNode levels node).map Prod.fst).Nodup := by
  have hart : (doc.view.tour levels (doc.view.resultArt node)).Nodup := by
    rcases resultArt_of_walk hw with hnone | hwalk
    · simp [Artwork.tour, hnone]
    · rwa [hwalk]
  have behindResult : ∀ n ∈ doc.view.tour levels (doc.view.resultArt node),
      doc.view.Behind root (.result :: hops) n := by
    intro n hn
    obtain ⟨stop, hstop, rfl⟩ := List.mem_map.mp hn
    exact h.behind_of_mem_resultArt hw hstop
  rw [Artwork.tourNode]
  split
  · exact List.nodup_nil
  · rw [List.map_cons, List.map_append, List.nodup_cons, ← Artwork.walk_child hw]
    refine ⟨fun hself => ?_, hart.append hchild fun n hn hn' =>
      nomatch h.behind_disjoint (behindResult n hn) (h.behind_of_mem_tour hn')⟩
    -- the node itself would lie behind one of its own links
    rcases List.mem_append.mp hself with hn | hn
    · exact h.not_behind_self hw (behindResult node hn)
    · exact h.not_behind_self hw (h.behind_of_mem_tour hn)

/-- A tour visits no node twice. -/
theorem nodup_tour (levels : Nat) (root : Root) (hops : List Hop) :
    (doc.view.tour levels (doc.view.walk root hops)).Nodup := by
  induction levels, root, hops using h.walk_induction with
  | zero => exact List.nodup_nil
  | nowhere levels root hops hw => simp [Artwork.tour, hw]
  | node levels root hops node hw ihResult ihChild ihSibling =>
    rw [Artwork.tour, h.tourAt_of_walk hw, List.map_append]
    refine (h.nodup_tourNode hw ihResult ihChild).append ihSibling fun n hn hn' => ?_
    -- what comes with the siblings lies behind another link than what belongs to the node
    have hlater := h.behind_of_mem_tour hn'
    obtain ⟨stop, hstop, rfl⟩ := List.mem_map.mp hn
    rcases h.behind_of_mem_tourNode hw hstop with hself | hresult | hchild
    · rw [hself] at hlater
      exact h.not_behind_self hw hlater
    · exact nomatch h.behind_disjoint hlater hresult
    · exact nomatch h.behind_disjoint hlater hchild

/-- Tours from different roots have no node in common. -/
theorem disjoint_tour {levels levels' : Nat} {root root' : Root} (hne : root ≠ root') :
    (doc.view.tour levels (doc.view.rootNode root)).Disjoint
      (doc.view.tour levels' (doc.view.rootNode root')) := by
  intro node hmem hmem'
  rw [← Artwork.walk_nil] at hmem hmem'
  obtain ⟨more, hmore⟩ := h.behind_of_mem_tour hmem
  obtain ⟨more', hmore'⟩ := h.behind_of_mem_tour hmem'
  exact hne (h.walk_unique hmore hmore').1

/-- What a tour visits is visited on the way around, at the depth that its levels show. -/
theorem visits_of_mem_tourAt {maxDepth levels : Nat} {root : Root} {hops : List Hop}
    {stop : Nat × Nat} (hlevels : levels ≤ maxDepth)
    (hmem : stop ∈ doc.view.tourAt levels (doc.view.walk root hops)) :
    stop.2 < levels ∧ doc.view.Visits maxDepth (doc.view.walk root hops) (maxDepth + 1 - levels)
      stop.1 (maxDepth - stop.2) := by
  induction levels, root, hops using h.walk_induction with
  | zero => simp [Artwork.tourAt] at hmem
  | nowhere levels root hops hw => simp [hw] at hmem
  | node levels root hops node hw ihResult ihChild ihSibling =>
    -- the first node stands at the depth at which the way starts
    have hpass : doc.view.Passes maxDepth (doc.view.walk root hops) (maxDepth + 1 - (levels + 1))
        node (maxDepth - levels) := by
      rw [show maxDepth + 1 - (levels + 1) = maxDepth - levels by omega]
      exact .first hw (Nat.sub_le _ _)
    rcases (h.mem_tourAt_of_walk hw).mp hmem with ⟨hvisible, rfl | hresult | hchild⟩ | hlater
    · exact ⟨Nat.lt_succ_self _, hpass, hvisible⟩
    · obtain ⟨hlt, hvisits⟩ := ihResult (by omega) (mem_tourAt_resultArt hw hresult)
      cases hart : doc.view.resultArt node with
      | none => simp [hart] at hresult
      | some below =>
        obtain ⟨hkind, group, hgroup, hbelow⟩ := Artwork.resultArt_eq_some_iff.mp hart
        rw [Artwork.walk_result_child hw, hgroup, Option.bind_some, hbelow,
          show maxDepth + 1 - levels = maxDepth - levels + 1 by omega] at hvisits
        exact ⟨by omega,
          (hpass.result hvisible hkind hgroup hbelow (by omega)).visits hvisits⟩
    · obtain ⟨hlt, hvisits⟩ := ihChild (by omega) hchild
      rw [Artwork.walk_child hw] at hchild hvisits
      cases hbelow : doc.view.firstChild node with
      | none => simp [hbelow] at hchild
      | some below =>
        rw [hbelow, show maxDepth + 1 - levels = maxDepth - levels + 1 by omega] at hvisits
        exact ⟨by omega, (hpass.child hvisible hbelow (by omega)).visits hvisits⟩
    · obtain ⟨hlt, hvisits⟩ := ihSibling hlevels hlater
      rw [Artwork.walk_sibling hw] at hlater hvisits
      cases hnext : doc.view.nextSibling node with
      | none => simp [hnext] at hlater
      | some next =>
        rw [hnext, show maxDepth + 1 - (levels + 1) = maxDepth - levels by omega] at hvisits
        exact ⟨hlt, (hpass.sibling hnext).visits hvisits⟩

/-- From a node on the way around, a tour goes on as a part of the whole tour. -/
theorem tourAt_subset_of_passes {maxDepth start node depth : Nat} {root : Root} {hops : List Hop}
    (hpass : doc.view.Passes maxDepth (doc.view.walk root hops) start node depth) :
    (∃ hops', doc.view.walk root hops' = some node) ∧
      doc.view.tourAt (maxDepth + 1 - depth) (some node) ⊆
        doc.view.tourAt (maxDepth + 1 - start) (doc.view.walk root hops) := by
  -- on the way around, with the walk to the node at hand, which the lemmas about tours ask for
  induction hpass with
  | first hw _ => exact ⟨⟨hops, hw⟩, by rw [hw]; exact List.Subset.refl _⟩
  | @sibling node next depth hpass hnext ih =>
    obtain ⟨⟨hops', hw⟩, hsubset⟩ := ih
    have hle := hpass.depth_le.2
    refine ⟨⟨.sibling :: hops', by rw [Artwork.walk_sibling hw, hnext]⟩, fun stop hstop => ?_⟩
    refine hsubset ?_
    rw [← hw, show maxDepth + 1 - depth = maxDepth - depth + 1 by omega, h.mem_tourAt_of_walk hw,
      Artwork.walk_sibling hw, hnext]
    rw [show maxDepth + 1 - depth = maxDepth - depth + 1 by omega] at hstop
    exact Or.inr hstop
  | @child node below depth hpass hvisible hbelow hle ih =>
    obtain ⟨⟨hops', hw⟩, hsubset⟩ := ih
    refine ⟨⟨.child :: hops', by rw [Artwork.walk_child hw, hbelow]⟩, fun stop hstop => ?_⟩
    refine hsubset ?_
    rw [← hw, show maxDepth + 1 - depth = maxDepth - depth + 1 by omega, h.mem_tourAt_of_walk hw,
      Artwork.walk_child hw, hbelow]
    rw [show maxDepth + 1 - (depth + 1) = maxDepth - depth by omega] at hstop
    exact Or.inl ⟨hvisible, Or.inr (Or.inr hstop)⟩
  | @result node group below depth hpass hvisible hkind hgroup hbelow hle ih =>
    obtain ⟨⟨hops', hw⟩, hsubset⟩ := ih
    have hart := Artwork.resultArt_eq_some_iff.mpr ⟨hkind, group, hgroup, hbelow⟩
    refine ⟨⟨.child :: .result :: hops', ?_⟩, fun stop hstop => ?_⟩
    · rw [Artwork.walk_result_child hw, hgroup, Option.bind_some, hbelow]
    · refine hsubset ?_
      rw [← hw, show maxDepth + 1 - depth = maxDepth - depth + 1 by omega,
        h.mem_tourAt_of_walk hw, hart]
      rw [show maxDepth + 1 - (depth + 1) = maxDepth - depth by omega] at hstop
      exact Or.inl ⟨hvisible, Or.inr (Or.inl hstop)⟩

/-- A tour visits exactly what is visited on the way around. -/
theorem mem_tourAt_iff {maxDepth start node depth : Nat} {root : Root} {hops : List Hop}
    (hstart : 1 ≤ start) (hdepth : depth ≤ maxDepth) :
    (node, maxDepth - depth) ∈
        doc.view.tourAt (maxDepth + 1 - start) (doc.view.walk root hops) ↔
      doc.view.Visits maxDepth (doc.view.walk root hops) start node depth := by
  constructor
  · intro hmem
    have hlevels : maxDepth + 1 - start ≤ maxDepth := by omega
    obtain ⟨hlt, hvisits⟩ := h.visits_of_mem_tourAt hlevels hmem
    dsimp only at hlt hvisits
    rwa [show maxDepth + 1 - (maxDepth + 1 - start) = start by omega,
      show maxDepth - (maxDepth - depth) = depth by omega] at hvisits
  · rintro ⟨hpass, hvisible⟩
    obtain ⟨⟨hops', hw⟩, hsubset⟩ := h.tourAt_subset_of_passes hpass
    -- the tour from the node begins with the node itself
    refine hsubset ?_
    rw [← hw, show maxDepth + 1 - depth = maxDepth - depth + 1 by omega, h.mem_tourAt_of_walk hw]
    exact Or.inl ⟨hvisible, Or.inl rfl⟩

end WellLinked

end ArtDocument

end ArtCanvas
