import ArtCanvas.Proofs.Scan.Effect
import ArtCanvas.Proofs.Scan.Limit

/-!
# A scan comes to each node once

The art of a pattern may use the pattern itself, or two patterns each other. A scan ends all the
same: a pattern is in the table before its art is scanned, so its art is scanned once, and the art
of different patterns and layers has no node in common.

* `Artwork.Chain`: the nodes that a loop along siblings meets, up to the end.
* `Artwork.starts`: the layers and patterns from which a scan goes around.
* `WellLinked.nodup_visited`: no node is visited twice.
* `ArtDocument.scan_once`: for a document that passes the check, a scan visits no node twice, every
  list of siblings that it goes along comes to an end, and a limit above the number of nodes is
  never reached.
-/

namespace ArtCanvas

/-- The nodes that a loop along the siblings meets from `first` on: the last one has no sibling
beside it. -/
inductive Artwork.Chain (art : Artwork) : Option Nat → List Nat → Prop
  | nil : Chain art none []
  | cons {node : Nat} {nodes : List Nat} : Chain art (art.nextSibling node) nodes →
      Chain art (some node) (node :: nodes)

/-- A loop along the siblings from `first` on comes to an end, and `siblings` is what it meets. -/
def Artwork.Ends (art : Artwork) (first : Option Nat) : Prop := art.Chain first (art.siblings first)

/-- Where the tours of a scan start that makes the registrations `regs`, with the levels that are
left there. -/
def Artwork.starts (art : Artwork) (maxDepth : Nat) (regs : List Registration) :
    List (Root × Nat) :=
  art.visibleLayers.map (fun layer => (.layer layer, maxDepth)) ++
    regs.map fun r => (.pattern r.handle, r.levels)

/-- Each layer is scanned once, and the art of each pattern on its registration only. -/
theorem Artwork.nodup_starts (art : Artwork) (maxDepth : Nat) {regs : List Registration}
    (hdistinct : (regs.map (·.handle)).Nodup) :
    ((art.starts maxDepth regs).map Prod.fst).Nodup := by
  have hlayers : art.visibleLayers.Nodup :=
    (List.nodup_reverse.mpr List.nodup_range).filter _
  rw [starts, List.map_append, List.map_map, List.map_map]
  refine List.Nodup.append (hlayers.map fun _ _ => Root.layer.inj) ?_ ?_
  · have hpatterns := hdistinct.map fun _ _ => Root.pattern.inj
    rwa [List.map_map] at hpatterns
  · intro root hlayer hpattern
    obtain ⟨layer, -, rfl⟩ := List.mem_map.mp hlayer
    obtain ⟨r, -, heq⟩ := List.mem_map.mp hpattern
    exact nomatch heq

/-- What a scan visits, as tours from roots. -/
theorem Artwork.exists_visited_perm (art : Artwork) (maxDepth : Nat) :
    ∃ starts : List (Root × Nat), (starts.map Prod.fst).Nodup ∧
      (art.scan maxDepth).2.visited.Perm
        (starts.flatMap fun start => art.tour start.2 (art.rootNode start.1)) := by
  obtain ⟨regs, heffect⟩ := art.effect_scan maxDepth
  refine ⟨art.starts maxDepth regs, art.nodup_starts maxDepth heffect.distinct, ?_⟩
  have hperm := heffect.visited
  rw [List.append_nil, List.map_append, Artwork.layerTours, List.map_flatMap,
    List.map_flatMap] at hperm
  rw [starts, List.flatMap_append, List.flatMap_map, List.flatMap_map]
  exact hperm

namespace ArtDocument

variable {doc : ArtDocument}

namespace WellLinked

variable [CurveLibrary] (h : doc.WellLinked)

include h

theorem ends_of_walk (root : Root) (hops : List Hop) : doc.view.Ends (doc.view.walk root hops) := by
  -- on how many nodes are left for a walk, which is never longer than their number
  induction hn : doc.nodes.size - hops.length generalizing hops with
  | zero =>
    rw [h.walk_eq_none (by omega)]
    exact .nil
  | succ n ih =>
    cases hw : doc.view.walk root hops with
    | none => exact .nil
    | some node =>
      have hlater := ih (.sibling :: hops) (by rw [List.length_cons]; omega)
      rw [Artwork.walk_sibling hw] at hlater
      rw [Artwork.Ends, h.siblings_of_walk hw]
      exact .cons hlater

/-- Tours from different roots, one after the other, visit no node twice. -/
theorem nodup_flatMap_tour (starts : List (Root × Nat)) (hroots : (starts.map Prod.fst).Nodup) :
    (starts.flatMap fun start => doc.view.tour start.2 (doc.view.rootNode start.1)).Nodup := by
  rw [List.nodup_flatMap]
  refine ⟨fun start _ => h.nodup_tour start.2 start.1 [], ?_⟩
  exact (List.pairwise_map.mp hroots).imp fun hne => h.disjoint_tour hne

/-- A scan visits no node twice, whatever patterns use each other. -/
theorem nodup_visited (maxDepth : Nat) : (doc.view.scan maxDepth).2.visited.Nodup := by
  obtain ⟨starts, hroots, hperm⟩ := doc.view.exists_visited_perm maxDepth
  exact hperm.nodup_iff.mpr (h.nodup_flatMap_tour starts hroots)

/-- What a scan visits lies on a walk. -/
theorem walk_of_mem_visited {maxDepth node : Nat}
    (hmem : node ∈ (doc.view.scan maxDepth).2.visited) :
    ∃ root hops, doc.view.walk root hops = some node := by
  obtain ⟨starts, -, hperm⟩ := doc.view.exists_visited_perm maxDepth
  obtain ⟨start, -, htour⟩ := List.mem_flatMap.mp (hperm.mem_iff.mp hmem)
  obtain ⟨more, hmore⟩ := h.behind_of_mem_tour (by rwa [Artwork.walk_nil])
  exact ⟨_, _, hmore⟩

theorem length_visited_le (maxDepth : Nat) :
    (doc.view.scan maxDepth).2.visited.length ≤ doc.nodes.size := by
  refine length_le_of_nodup (h.nodup_visited maxDepth) fun node hmem => ?_
  obtain ⟨root, hops, hw⟩ := h.walk_of_mem_visited hmem
  exact h.walk_lt hw

/-- A limit above the number of nodes leaves nothing out. -/
theorem warnings_eq_nil {maxDepth : Nat} (hdeep : doc.nodes.size < maxDepth) :
    (doc.view.scan maxDepth).2.warnings = [] := by
  obtain ⟨regs, heffect⟩ := doc.view.effect_scan maxDepth
  rcases heffect.deep with hnone | hvisited
  · exact hnone
  · -- at the limit more nodes would have been visited than there are
    have hlength := h.length_visited_le maxDepth
    have hempty : ({} : ScanState).visited.length = 0 := rfl
    omega

end WellLinked

/-- Two patterns, each in the art of the other one: as a paint, and as a symbol. -/
def mutualPatterns : ArtDocument where
  layers := #[{ name := "art", art := some 0 }]
  nodes := #[
    { bounds := unitBox, kind := .symbol, symbol := some 0 },
    { bounds := unitBox, fill := .pattern 1 },
    { bounds := unitBox, kind := .symbol, symbol := some 0 }]
  patterns := #[{ name := "dots", content := some 1 }, { name := "rings", content := some 2 }]

/-- A scan of a document that passes the check ends, and it visits no node twice, over all layers
and all patterns, even if patterns use each other in a circle. Every list of siblings that it goes
along comes to an end: those of layers and of patterns, and those below the nodes that are visited.
And the descent ends without the limit: a limit above the number of nodes is never reached, and
every higher one gives the same scan. -/
theorem scan_once [CurveLibrary] (doc : ArtDocument) (hvalid : doc.Valid) (maxDepth : Nat) :
    (doc.view.scan maxDepth).2.visited.Nodup ∧
      (∀ layer, doc.view.Ends (doc.view.firstArt layer)) ∧
      (∀ handle, doc.view.Ends (doc.view.patternContent handle)) ∧
      (∀ node ∈ (doc.view.scan maxDepth).2.visited, doc.view.Ends (doc.view.firstChild node) ∧
        ∀ group, doc.view.pluginResult node = some group →
          doc.view.Ends (doc.view.firstChild group)) ∧
      (doc.nodes.size < maxDepth → (doc.view.scan maxDepth).2.warnings = [] ∧
        ∀ maxDepth' ≥ maxDepth, doc.view.scan maxDepth' = doc.view.scan maxDepth) := by
  have h := hvalid.wellLinked
  refine ⟨h.nodup_visited maxDepth, fun layer => h.ends_of_walk (.layer layer) [],
    fun handle => h.ends_of_walk (.pattern handle) [], fun node hmem => ?_, fun hdeep => ?_⟩
  · obtain ⟨root, hops, hw⟩ := h.walk_of_mem_visited hmem
    refine ⟨?_, fun group hgroup => ?_⟩
    · rw [← Artwork.walk_child hw]
      exact h.ends_of_walk root _
    · have hbelow := h.ends_of_walk root (.child :: .result :: hops)
      rwa [Artwork.walk_result_child hw, hgroup, Option.bind_some] at hbelow
  · have hnone := h.warnings_eq_nil hdeep
    exact ⟨hnone, fun maxDepth' hle => Artwork.scan_of_no_warnings hle hnone⟩

/-- In `mutualPatterns` each of the three nodes is visited once, and nothing is left out. -/
theorem scan_once_mutualPatterns :
    mutualPatterns.Valid ∧ (mutualPatterns.view.scan 4).2.visited = [2, 1, 0] ∧
      [2, 1, 0].Nodup ∧ mutualPatterns.nodes.size < 4 ∧
      (mutualPatterns.view.scan 4).2.warnings = [] :=
  have hvalid : mutualPatterns.Valid := by decide +kernel
  have hvisited : (mutualPatterns.view.scan 4).2.visited = [2, 1, 0] := by decide +kernel
  have hdeep : mutualPatterns.nodes.size < 4 := by decide
  have honce := mutualPatterns.scan_once hvalid 4
  ⟨hvalid, hvisited, hvisited ▸ honce.1, hdeep, (honce.2.2.2.2 hdeep).1⟩

end ArtDocument

end ArtCanvas
