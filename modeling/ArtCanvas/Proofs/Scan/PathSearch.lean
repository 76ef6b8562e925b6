import ArtCanvas.Proofs.Scan.Effect

/-!
# The search for a path

The movement of a layer follows the first outline in its art. The search for it goes around the art
much as a scan does, but not into plugin groups, and it stops as soon as it finds an outline. What
it finds is the first outline in a list of all nodes that it could come to.

* `Artwork.ownPath`: the outline of a node, if there is anything of it.
* `Artwork.Lists`: the nodes that are not hidden, each before what is below it and behind it.
* `Artwork.Searches`: how the search goes from node to node.
* `Artwork.Reaches`: the nodes that it can come to, and `Artwork.Lists.mem_iff`: these are listed.
* `Artwork.Searches.eq_of_lists`: a search looks at the front of the list, up to the first outline.
* `ArtDocument.findPath_first`: `findPath` is such a search, in every document that passes the
  check, and a scan of the layer visits all nodes that it looks at.
-/

namespace ArtCanvas

namespace Artwork

section Search

variable (art : Artwork) (maxDepth : Nat)

/-- The outline of a node, if there is anything of it. -/
def ownPath (node : Nat) : Option Path := (art.path node).filter (!·.isEmpty)

/-- The nodes from `first` on that are not hidden are `nodes`, where `first` stands at the given
depth: each node, then what is below it one level deeper, then the siblings. Nothing is listed
deeper than `maxDepth` or below hidden nodes. -/
inductive Lists : (first : Option Nat) → (depth : Nat) → (nodes : List Nat) → Prop
  | nowhere {depth : Nat} : Lists none depth []
  | tooDeep {first : Option Nat} {depth : Nat} : maxDepth < depth → Lists first depth []
  | hidden {node depth : Nat} {rest : List Nat} : depth ≤ maxDepth → art.isHidden node = true →
      Lists (art.nextSibling node) depth rest → Lists (some node) depth rest
  | shown {node depth : Nat} {below rest : List Nat} : depth ≤ maxDepth →
      art.isHidden node = false → Lists (art.firstChild node) (depth + 1) below →
      Lists (art.nextSibling node) depth rest → Lists (some node) depth (node :: below ++ rest)

/-- A search from `first` on, at the given depth, looks for an outline at the nodes `looked`, in
this order, and comes back with `found`. -/
inductive Searches : (first : Option Nat) → (depth : Nat) → (looked : List Nat) →
    (found : Option Path) → Prop
  | tooDeep {first : Option Nat} {depth : Nat} : maxDepth < depth → Searches first depth [] none
  | nowhere {depth : Nat} : depth ≤ maxDepth → Searches none depth [] none
  | hidden {node depth : Nat} {looked : List Nat} {found : Option Path} : depth ≤ maxDepth →
      art.isHidden node = true → Searches (art.nextSibling node) depth looked found →
      Searches (some node) depth looked found
  | here {node depth : Nat} {path : Path} : depth ≤ maxDepth → art.isHidden node = false →
      art.ownPath node = some path → Searches (some node) depth [node] (some path)
  | inside {node depth : Nat} {looked : List Nat} {path : Path} : depth ≤ maxDepth →
      art.isHidden node = false → art.ownPath node = none →
      Searches (art.firstChild node) (depth + 1) looked (some path) →
      Searches (some node) depth (node :: looked) (some path)
  | behind {node depth : Nat} {looked looked' : List Nat} {found : Option Path} :
      depth ≤ maxDepth → art.isHidden node = false → art.ownPath node = none →
      Searches (art.firstChild node) (depth + 1) looked none →
      Searches (art.nextSibling node) depth looked' found →
      Searches (some node) depth (node :: looked ++ looked') found

/-- From `first` on, at depth `start`, the links to siblings and to first children lead to `node`,
at the given depth. No link leads from a hidden node to its children, nor deeper than `maxDepth`. -/
inductive Reaches (first : Option Nat) (start : Nat) : (node depth : Nat) → Prop
  | first {node : Nat} : first = some node → start ≤ maxDepth → Reaches first start node start
  | sibling {node next depth : Nat} : Reaches first start node depth →
      art.nextSibling node = some next → Reaches first start next depth
  | child {node below depth : Nat} : Reaches first start node depth → art.isHidden node = false →
      art.firstChild node = some below → depth + 1 ≤ maxDepth →
      Reaches first start below (depth + 1)

end Search

variable {art : Artwork} {maxDepth : Nat}

theorem ownPath_eq_some_iff {node : Nat} {path : Path} :
    art.ownPath node = some path ↔ art.path node = some path ∧ path ≠ [] := by
  simp [ownPath, Option.filter_eq_some_iff]

/-! ### What is listed -/

theorem Reaches.depth_le {first : Option Nat} {start node depth : Nat}
    (h : art.Reaches maxDepth first start node depth) : start ≤ depth ∧ depth ≤ maxDepth := by
  induction h with
  | first _ hle => exact ⟨le_rfl, hle⟩
  | sibling _ _ ih => exact ih
  | child _ _ _ hle ih => exact ⟨by omega, hle⟩

/-- What is reached from a link of a node that is reached is reached. -/
theorem Reaches.of_link {first link : Option Nat} {start between node depth : Nat}
    (h : art.Reaches maxDepth link between node depth)
    (hlink : ∀ next, link = some next → between ≤ maxDepth →
      art.Reaches maxDepth first start next between) :
    art.Reaches maxDepth first start node depth := by
  induction h with
  | first heq hle => exact hlink _ heq hle
  | sibling _ hnext ih => exact ih.sibling hnext
  | child _ hshown hbelow hle ih => exact ih.child hshown hbelow hle

namespace Lists

variable {first : Option Nat} {depth : Nat} {nodes : List Nat}

/-- From a hidden node on, the siblings are listed. -/
theorem of_hidden {node : Nat} (h : art.Lists maxDepth (some node) depth nodes)
    (hle : depth ≤ maxDepth) (hhidden : art.isHidden node = true) :
    art.Lists maxDepth (art.nextSibling node) depth nodes := by
  cases h with
  | tooDeep hdeep => omega
  | hidden _ _ hrest => exact hrest
  | shown _ hshown _ _ => simp [hhidden] at hshown

/-- From any other node on, it is listed, then what is below it, and then the siblings. -/
theorem exists_of_shown {node : Nat} (h : art.Lists maxDepth (some node) depth nodes)
    (hle : depth ≤ maxDepth) (hshown : art.isHidden node = false) :
    ∃ below rest, art.Lists maxDepth (art.firstChild node) (depth + 1) below ∧
      art.Lists maxDepth (art.nextSibling node) depth rest ∧ nodes = node :: below ++ rest := by
  cases h with
  | tooDeep hdeep => omega
  | hidden _ hhidden _ => simp [hshown] at hhidden
  | shown _ _ hbelow hrest => exact ⟨_, _, hbelow, hrest, rfl⟩

/-- Nodes are listed in one way. -/
theorem unique {nodes' : List Nat} (h : art.Lists maxDepth first depth nodes)
    (h' : art.Lists maxDepth first depth nodes') : nodes = nodes' := by
  induction h generalizing nodes' with
  | nowhere => cases h' <;> rfl
  | tooDeep hdeep => cases h' <;> first | rfl | omega
  | hidden hle hhidden _ ih => exact ih (h'.of_hidden hle hhidden)
  | shown hle hshown _ _ ihBelow ihRest =>
    obtain ⟨below', rest', hbelow, hrest, rfl⟩ := h'.exists_of_shown hle hshown
    rw [ihBelow hbelow, ihRest hrest]

/-- What is listed is not hidden, and it is reached. -/
theorem reaches_of_mem {node : Nat} (h : art.Lists maxDepth first depth nodes)
    (hmem : node ∈ nodes) :
    art.isHidden node = false ∧ ∃ depth', art.Reaches maxDepth first depth node depth' := by
  induction h with
  | nowhere => cases hmem
  | tooDeep _ => cases hmem
  | hidden hle _ _ ih =>
    -- the link to the sibling is followed from a hidden node too
    obtain ⟨hshown, depth', hreaches⟩ := ih hmem
    exact ⟨hshown, depth', hreaches.of_link fun next hnext _ =>
      (Reaches.first rfl hle).sibling hnext⟩
  | shown hle hshown _ _ ihBelow ihRest =>
    rcases List.mem_cons.mp hmem with rfl | hmem
    · exact ⟨hshown, _, .first rfl hle⟩
    · rcases List.mem_append.mp hmem with hbelow | hrest
      · obtain ⟨hshown', depth', hreaches⟩ := ihBelow hbelow
        exact ⟨hshown', depth', hreaches.of_link fun next hnext hle' =>
          (Reaches.first rfl hle).child hshown hnext hle'⟩
      · obtain ⟨hshown', depth', hreaches⟩ := ihRest hrest
        exact ⟨hshown', depth', hreaches.of_link fun next hnext _ =>
          (Reaches.first rfl hle).sibling hnext⟩

/-- What is listed from a node on that is reached is a part of the list. -/
theorem exists_of_reaches {node depth' : Nat} (h : art.Lists maxDepth first depth nodes)
    (hreaches : art.Reaches maxDepth first depth node depth') :
    ∃ nodes', art.Lists maxDepth (some node) depth' nodes' ∧ nodes' ⊆ nodes := by
  -- each link takes a part off the list that was found for the node before
  induction hreaches with
  | first heq _ =>
    rw [heq] at h
    exact ⟨nodes, h, List.Subset.refl _⟩
  | sibling hreaches hnext ih =>
    obtain ⟨nodes', hlists, hsubset⟩ := ih
    have hle := hreaches.depth_le.2
    rw [← hnext]
    cases hlists with
    | tooDeep hdeep => omega
    | hidden _ _ hrest => exact ⟨_, hrest, hsubset⟩
    | shown _ _ _ hrest =>
      exact ⟨_, hrest, fun n hn => hsubset (List.mem_append_right _ hn)⟩
  | child _ hshown hbelow hle ih =>
    obtain ⟨nodes', hlists, hsubset⟩ := ih
    obtain ⟨inside, rest, hinside, -, rfl⟩ := hlists.exists_of_shown (by omega) hshown
    rw [← hbelow]
    exact ⟨_, hinside, fun n hn => hsubset (List.mem_append_left _ (List.mem_cons_of_mem _ hn))⟩

/-- The list holds what is reached and not hidden. -/
theorem mem_iff {node : Nat} (h : art.Lists maxDepth first depth nodes) :
    node ∈ nodes ↔
      art.isHidden node = false ∧ ∃ depth', art.Reaches maxDepth first depth node depth' := by
  refine ⟨h.reaches_of_mem, ?_⟩
  rintro ⟨hshown, depth', hreaches⟩
  obtain ⟨nodes', hlists, hsubset⟩ := h.exists_of_reaches hreaches
  obtain ⟨below, rest, -, -, rfl⟩ := hlists.exists_of_shown hreaches.depth_le.2 hshown
  exact hsubset List.mem_cons_self

end Lists

/-! ### What is looked at -/

/-- A search that finds an outline has looked at the front of the list, and at all of it if there is
none. What it finds is the first outline in the list. -/
theorem Searches.eq_of_lists {first : Option Nat} {depth : Nat} {looked nodes : List Nat}
    {found : Option Path} (h : art.Searches maxDepth first depth looked found)
    (hlists : art.Lists maxDepth first depth nodes) :
    looked <+: nodes ∧ (found = none → looked = nodes) ∧
      found = nodes.findSome? art.ownPath := by
  -- the search and the list follow the same links, so only one form of the list fits each step
  induction h generalizing nodes with
  | tooDeep hdeep => cases hlists <;> first | omega | exact ⟨List.prefix_rfl, fun _ => rfl, rfl⟩
  | nowhere hle => cases hlists <;> exact ⟨List.prefix_rfl, fun _ => rfl, rfl⟩
  | hidden hle hhidden _ ih => exact ih (hlists.of_hidden hle hhidden)
  | here hle hshown hpath =>
    obtain ⟨below, rest, -, -, rfl⟩ := hlists.exists_of_shown hle hshown
    refine ⟨⟨_, rfl⟩, nofun, ?_⟩
    rw [List.cons_append, List.findSome?_cons, hpath]
  | inside hle hshown hpath _ ih =>
    obtain ⟨below, rest, hbelow, -, rfl⟩ := hlists.exists_of_shown hle hshown
    obtain ⟨hfront, -, hfound⟩ := ih hbelow
    refine ⟨?_, nofun, ?_⟩
    · exact (List.cons_prefix_cons.mpr ⟨rfl, hfront⟩).trans (List.prefix_append _ _)
    · rw [List.cons_append, List.findSome?_cons, hpath, List.findSome?_append, ← hfound]
      rfl
  | behind hle hshown hpath _ _ ihBelow ihRest =>
    obtain ⟨below, rest, hbelow, hrest, rfl⟩ := hlists.exists_of_shown hle hshown
    obtain ⟨-, hall, hnone⟩ := ihBelow hbelow
    obtain ⟨hfront, hallRest, hfound⟩ := ihRest hrest
    rw [hall rfl]
    refine ⟨(List.prefix_append_right_inj _).mpr hfront, fun h => ?_, ?_⟩
    · rw [hallRest h]
    · rw [List.cons_append, List.findSome?_cons, hpath, List.findSome?_append, ← hnone, ← hfound]
      rfl

end Artwork

/-! ### Searches in a document -/

namespace ArtDocument.WellLinked

variable [CurveLibrary] {doc : ArtDocument} (h : doc.WellLinked) {maxDepth : Nat}

include h

/-- A search looks at its first node, below it, and then at the siblings. -/
theorem findPath_of_walk {root : Root} {hops : List Hop} {node : Nat}
    (hw : doc.view.walk root hops = some node) (levels : Nat) :
    doc.view.findPath (levels + 1) (doc.view.walk root hops) =
      (if doc.view.isHidden node then none
        else (doc.view.ownPath node).or
          (doc.view.findPath levels (doc.view.walk root (.child :: hops)))).or
        (doc.view.findPath (levels + 1) (doc.view.walk root (.sibling :: hops))) := by
  rw [Artwork.findPath, hw, h.siblings_of_walk hw, List.findSome?_cons, Artwork.walk_child hw,
    Artwork.walk_sibling hw, Artwork.findPath, ← Artwork.ownPath]
  generalize (if doc.view.isHidden node then none else _) = here
  cases here <;> rfl

/-- The nodes behind a walk are listed, however many levels are left, and a tour visits them in this
order. -/
theorem exists_lists {levels : Nat} (hlevels : levels ≤ maxDepth) (root : Root) (hops : List Hop) :
    ∃ nodes, doc.view.Lists maxDepth (doc.view.walk root hops) (maxDepth + 1 - levels) nodes ∧
      nodes.Sublist (doc.view.tour levels (doc.view.walk root hops)) := by
  -- a step to a child takes one level off and goes one deeper, so the sum of both stays the same
  induction levels, root, hops using h.walk_induction with
  | zero root hops => exact ⟨[], .tooDeep (by omega), List.nil_sublist _⟩
  | nowhere levels root hops hw =>
    rw [hw]
    exact ⟨[], .nowhere, List.nil_sublist _⟩
  | node levels root hops node hw _ ihChild ihSibling =>
    obtain ⟨rest, hrest, hrestTour⟩ := ihSibling hlevels
    obtain ⟨below, hbelow, hbelowTour⟩ := ihChild (by omega)
    have hle : maxDepth + 1 - (levels + 1) ≤ maxDepth := by omega
    have hdeeper : maxDepth + 1 - levels = maxDepth + 1 - (levels + 1) + 1 := by omega
    rw [Artwork.walk_sibling hw] at hrest
    rw [Artwork.walk_child hw, hdeeper] at hbelow
    rw [Artwork.tour, h.tourAt_of_walk hw, List.map_append, Artwork.tourNode,
      ← Artwork.walk_child hw]
    cases hhidden : doc.view.isHidden node with
    | true =>
      refine ⟨rest, ?_, hrestTour⟩
      rw [hw]
      exact .hidden hle hhidden hrest
    | false =>
      refine ⟨node :: below ++ rest, ?_, ?_⟩
      · rw [hw]
        exact .shown hle hhidden hbelow hrest
      · -- the art of plugin groups is visited in between, but not listed
        refine List.Sublist.append (List.Sublist.cons_cons _ ?_) hrestTour
        rw [List.map_append]
        exact hbelowTour.trans (List.sublist_append_right _ _)

/-- The search behind a walk goes from node to node, however many levels are left. -/
theorem exists_searches {levels : Nat} (hlevels : levels ≤ maxDepth) (root : Root)
    (hops : List Hop) :
    ∃ looked, doc.view.Searches maxDepth (doc.view.walk root hops) (maxDepth + 1 - levels) looked
      (doc.view.findPath levels (doc.view.walk root hops)) := by
  -- as above; what the searches below and behind a node find says which rule applies to it
  induction levels, root, hops using h.walk_induction with
  | zero root hops => exact ⟨[], .tooDeep (by omega)⟩
  | nowhere levels root hops hw =>
    rw [hw]
    exact ⟨[], .nowhere (by omega)⟩
  | node levels root hops node hw _ ihChild ihSibling =>
    obtain ⟨lookedBehind, hbehind⟩ := ihSibling hlevels
    obtain ⟨lookedBelow, hbelow⟩ := ihChild (by omega)
    have hle : maxDepth + 1 - (levels + 1) ≤ maxDepth := by omega
    have hdeeper : maxDepth + 1 - levels = maxDepth + 1 - (levels + 1) + 1 := by omega
    rw [h.findPath_of_walk hw]
    generalize doc.view.findPath (levels + 1) (doc.view.walk root (.sibling :: hops)) = found
      at hbehind ⊢
    generalize doc.view.findPath levels (doc.view.walk root (.child :: hops)) = foundBelow
      at hbelow ⊢
    rw [Artwork.walk_sibling hw] at hbehind
    rw [Artwork.walk_child hw, hdeeper] at hbelow
    rw [hw]
    cases hhidden : doc.view.isHidden node with
    | true => exact ⟨lookedBehind, .hidden hle hhidden hbehind⟩
    | false =>
      cases hown : doc.view.ownPath node with
      | some path => exact ⟨[node], .here hle hhidden hown⟩
      | none =>
        cases foundBelow with
        | some path => exact ⟨_, .inside hle hhidden hown hbelow⟩
        | none => exact ⟨_, .behind hle hhidden hown hbelow hbehind⟩

end ArtDocument.WellLinked

/-- A scan of a layer visits the nodes of its tour, whatever was visited before. -/
theorem Artwork.tour_subperm_scanLayer (art : Artwork) (maxDepth layer : Nat) (s : ScanState) :
    (art.tour maxDepth (art.firstArt layer) ++ s.visited).Subperm
      (art.scanLayer maxDepth layer s).2.visited := by
  obtain ⟨regs, heffect⟩ := art.hasEffect_scanSiblings maxDepth (maxDepth + 1 - 1)
    (art.firstArt layer) { s with measure := {} }
  have hvisited := heffect.visited
  rw [Nat.add_sub_cancel, List.map_append, List.append_assoc] at hvisited
  -- the tours of new patterns come in between
  refine List.Subperm.trans ?_ hvisited.symm.subperm
  exact ((List.Sublist.refl _).append (List.sublist_append_right _ _)).subperm

namespace ArtDocument

/-- The search for the path of a layer ends, and its answer is the outline of the first node that
has one among those listed: the nodes that are not hidden, reached along siblings and first children
of nodes that are not hidden. It looks at the front of this list only, and a scan of the layer with
the same limit visits all of the list. -/
theorem findPath_first [CurveLibrary] (doc : ArtDocument) (hvalid : doc.Valid)
    (layer maxDepth : Nat) :
    ∃ nodes : List Nat,
      doc.view.Lists maxDepth (doc.view.firstArt layer) 1 nodes
        ∧ (∀ node, node ∈ nodes ↔ doc.view.isHidden node = false ∧
          ∃ depth, doc.view.Reaches maxDepth (doc.view.firstArt layer) 1 node depth)
        ∧ (∃ looked, doc.view.Searches maxDepth (doc.view.firstArt layer) 1 looked
          (doc.view.findPath maxDepth (doc.view.firstArt layer)))
        ∧ (∀ looked found,
          doc.view.Searches maxDepth (doc.view.firstArt layer) 1 looked found →
            found = doc.view.findPath maxDepth (doc.view.firstArt layer) ∧ looked <+: nodes)
        ∧ (∀ path, doc.view.findPath maxDepth (doc.view.firstArt layer) = some path ↔
          ∃ before node behind, nodes = before ++ node :: behind
            ∧ (doc.view.path node = some path ∧ path ≠ [])
            ∧ ∀ other ∈ before, ∀ path', doc.view.path other = some path' → path' = [])
        ∧ (doc.view.findPath maxDepth (doc.view.firstArt layer) = none ↔
          ∀ node ∈ nodes, ∀ path, doc.view.path node = some path → path = [])
        ∧ ∀ s, (nodes ++ s.visited).Subperm (doc.view.scanLayer maxDepth layer s).2.visited := by
  have h := hvalid.wellLinked
  obtain ⟨nodes, hlists, htour⟩ := h.exists_lists (Nat.le_refl maxDepth) (.layer layer) []
  obtain ⟨looked, hsearches⟩ := h.exists_searches (Nat.le_refl maxDepth) (.layer layer) []
  rw [Nat.add_sub_cancel_left] at hlists hsearches
  change doc.view.Lists maxDepth (doc.view.firstArt layer) 1 nodes at hlists
  change doc.view.Searches maxDepth (doc.view.firstArt layer) 1 looked
    (doc.view.findPath maxDepth (doc.view.firstArt layer)) at hsearches
  have hfound := (hsearches.eq_of_lists hlists).2.2
  -- an outline of which there is nothing counts as none
  have hnone : ∀ node, doc.view.ownPath node = none ↔
      ∀ path, doc.view.path node = some path → path = [] := by
    intro node
    rw [Option.eq_none_iff_forall_ne_some]
    exact forall_congr' fun path => by
      rw [ne_eq, Artwork.ownPath_eq_some_iff, not_and, not_not]
  refine ⟨nodes, hlists, fun node => hlists.mem_iff, ⟨looked, hsearches⟩,
    fun looked' found hs => ?_, fun path => ?_, ?_, fun s => ?_⟩
  · obtain ⟨hfront, -, hfound'⟩ := hs.eq_of_lists hlists
    exact ⟨hfound'.trans hfound.symm, hfront⟩
  · rw [hfound, List.findSome?_eq_some_iff]
    simp only [Artwork.ownPath_eq_some_iff, hnone]
  · rw [hfound, List.findSome?_eq_none_iff]
    simp only [hnone]
  · refine List.Subperm.trans ?_ (doc.view.tour_subperm_scanLayer maxDepth layer s)
    exact (htour.append (List.Sublist.refl _)).subperm

/-- A layer that starts with a hidden outline, which is followed by a plugin group with an empty
outline. The result of the group has an outline, and so has its second child. -/
def hiddenOutline : ArtDocument where
  layers := #[{ name := "along", art := some 0 }]
  nodes := #[
    { bounds := unitBox, hidden := true, nextSibling := some 1, path := some "M0 0 L5 5" },
    { bounds := unitBox, kind := .pluginGroup, result := some 2, firstChild := some 4,
      path := some "" },
    { bounds := unitBox, firstChild := some 3 },
    { bounds := unitBox, path := some "M0 0 L1 1" },
    { bounds := unitBox, nextSibling := some 5 },
    { bounds := unitBox, path := some "M0 0 L10 0 L10 10" }]

/-- The search in `hiddenOutline` passes over the hidden outline and the empty one, and finds that
of the second child. -/
theorem findPath_first_hiddenOutline :
    hiddenOutline.Valid
      ∧ hiddenOutline.view.visibleLayers = [0]
      ∧ (hiddenOutline.view.findPath 16 (some 0)).map List.length = some 3
      ∧ ∃ nodes : List Nat,
        hiddenOutline.view.Lists 16 (some 0) 1 nodes
          ∧ (∃ before node behind, nodes = before ++ node :: behind
            ∧ hiddenOutline.view.path node = hiddenOutline.view.findPath 16 (some 0))
          ∧ nodes.Subperm (hiddenOutline.view.scanLayer 16 0 {}).2.visited := by
  have hvalid : hiddenOutline.Valid := by decide +kernel
  have hlength : (hiddenOutline.view.findPath 16 (some 0)).map List.length = some 3 := by
    decide +kernel
  obtain ⟨path, hpath, -⟩ := Option.map_eq_some_iff.mp hlength
  obtain ⟨nodes, hlists, -, -, -, hfirst, -, hvisited⟩ :=
    findPath_first hiddenOutline hvalid 0 16
  obtain ⟨before, node, behind, hsplit, ⟨hnode, -⟩, -⟩ := (hfirst path).mp hpath
  refine ⟨hvalid, by decide +kernel, hlength, nodes, hlists,
    ⟨before, node, behind, hsplit, hnode.trans hpath.symm⟩, ?_⟩
  have hsubperm := hvisited {}
  rwa [show ({} : ScanState).visited = [] from rfl, List.append_nil] at hsubperm

end ArtDocument

end ArtCanvas
