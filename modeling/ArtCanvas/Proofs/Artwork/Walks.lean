import ArtCanvas.Artwork.View
import ArtCanvas.Proofs.Artwork.Links
import ArtCanvas.Geometry.Path.Reader
import Mathlib.Data.List.Nodup
import Mathlib.Data.List.Infix
import Mathlib.Data.List.Perm.Subperm

/-!
# Walks through art

Art is walked from a root, which is the art of a layer or the content of a pattern, along the links
between nodes. The check of a document looks at single links only. This module derives what that
means for whole walks, and so for every loop over siblings and every descent into children.

* `Artwork.walk`: the node at which a walk ends, `Artwork.trail`: the nodes that it meets.
* `ArtDocument.WellLinked.walk_unique`: a node is reached from one root and along one walk only.
* `ArtDocument.WellLinked.walk_length_lt`: a walk has fewer links than there are nodes.
* `ArtDocument.WellLinked.siblings_of_walk`: the bounded list of siblings is the whole one.
* `ArtDocument.reachable_art_forest`: all of this for every document that passes the check, which
  nevertheless accepts cycles that no root leads to.
-/

namespace ArtCanvas

/-- A link from node to node. -/
inductive Hop where
  /-- To the first child. -/
  | child
  /-- To the next sibling. -/
  | sibling
  /-- To the result of a plugin group. -/
  | result
  deriving DecidableEq, Repr

/-- What links into art from outside. -/
inductive Root where
  /-- A layer, by its position. -/
  | layer (index : Nat)
  /-- A pattern, by its position. -/
  | pattern (index : Nat)
  deriving DecidableEq, Repr

namespace Artwork

variable (art : Artwork)

/-- The node that a link leads to. -/
def hop : Hop → Nat → Option Nat
  | .child => art.firstChild
  | .sibling => art.nextSibling
  | .result => art.pluginResult

/-- The node that a root leads to. -/
def rootNode : Root → Option Nat
  | .layer index => art.firstArt index
  | .pattern index => art.patternContent index

/-- The node at which a walk from a root ends, if all its links are there. The last link comes
first. -/
def walk (root : Root) : List Hop → Option Nat
  | [] => art.rootNode root
  | hop :: hops => (walk root hops).bind (art.hop hop)

/-- The nodes that a walk meets, the last one first. -/
def trail (root : Root) (hops : List Hop) : List Nat := hops.tails.filterMap (art.walk root)

/-- Without a link, a walk stays at its root. -/
@[simp]
theorem walk_nil (root : Root) : art.walk root [] = art.rootNode root := rfl

/-- One more link goes on from where the walk ended. -/
theorem walk_cons (root : Root) (hop : Hop) (hops : List Hop) :
    art.walk root (hop :: hops) = (art.walk root hops).bind (art.hop hop) := rfl

variable {art}

/-- A walk that ends at a node goes on along the links of that node. -/
theorem walk_cons_of_walk {root : Root} {hops : List Hop} {node : Nat}
    (h : art.walk root hops = some node) (hop : Hop) :
    art.walk root (hop :: hops) = art.hop hop node := by
  rw [walk_cons, h, Option.bind_some]

/-- A walk goes on to the first child. -/
theorem walk_child {root : Root} {hops : List Hop} {node : Nat}
    (h : art.walk root hops = some node) :
    art.walk root (.child :: hops) = art.firstChild node := walk_cons_of_walk h .child

/-- A walk goes on to the next sibling. -/
theorem walk_sibling {root : Root} {hops : List Hop} {node : Nat}
    (h : art.walk root hops = some node) :
    art.walk root (.sibling :: hops) = art.nextSibling node := walk_cons_of_walk h .sibling

/-- A walk goes on to the first child of a result. -/
theorem walk_result_child {root : Root} {hops : List Hop} {node : Nat}
    (h : art.walk root hops = some node) :
    art.walk root (.child :: .result :: hops) = (art.pluginResult node).bind art.firstChild := by
  rw [walk_cons, walk_cons_of_walk h]
  rfl

/-- A node that a walk meets is the end of a part of it. -/
theorem mem_trail_iff {root : Root} {hops : List Hop} {node : Nat} :
    node ∈ art.trail root hops ↔ ∃ part, part <:+ hops ∧ art.walk root part = some node := by
  simp [trail, List.mem_filterMap, List.mem_tails]

/-- One more link adds the node at the end of the walk. -/
theorem trail_cons (root : Root) (hop : Hop) (hops : List Hop) :
    art.trail root (hop :: hops) =
      (art.walk root (hop :: hops)).toList ++ art.trail root hops := by
  rw [trail, List.tails_cons, List.filterMap_cons]
  cases art.walk root (hop :: hops) <;> rfl

/-- A walk meets one node more than it has links. -/
theorem length_trail {root : Root} {hops : List Hop} {node : Nat}
    (h : art.walk root hops = some node) : (art.trail root hops).length = hops.length + 1 := by
  induction hops generalizing node with
  | nil => simp [trail, show art.rootNode root = some node from h]
  | cons hop hops ih =>
    obtain ⟨parent, hparent, -⟩ := Option.bind_eq_some_iff.mp h
    rw [trail_cons, h, List.length_append, ih hparent, List.length_cons]
    simp [Nat.add_comm]

end Artwork

/-- The holder of a link from a node. -/
def Hop.holder (node : Nat) : Hop → Holder
  | .child => .firstChild node
  | .sibling => .nextSibling node
  | .result => .result node

/-- The root that holds a link; a link between nodes is held by none. -/
def Holder.root? : Holder → Option Root
  | .layer index _ => some (.layer index)
  | .pattern index _ => some (.pattern index)
  | .firstChild _ | .nextSibling _ | .result _ => none

/-- A link between nodes does not come from a root. -/
@[simp]
theorem Hop.root?_holder (node : Nat) (hop : Hop) : (hop.holder node).root? = none := by
  cases hop <;> rfl

/-- The holder of a link tells the node that it comes from, and its kind. -/
theorem Hop.holder_inj {a b : Nat} {hop hop' : Hop} (h : hop.holder a = hop'.holder b) :
    hop = hop' ∧ a = b := by
  cases hop <;> cases hop' <;> simp_all [Hop.holder]

namespace ArtDocument

variable {doc : ArtDocument}

/-- What a node links to is the target of a checked link. -/
theorem mem_links_of_hop [CurveLibrary] {hop : Hop} {node target : Nat}
    (h : doc.view.hop hop node = some target) : ⟨hop.holder node, target⟩ ∈ doc.links := by
  -- each kind of link is one of the three that a node holds
  have hnode : ∃ n, doc.nodes[node]? = some n ∧ ⟨hop.holder node, target⟩ ∈ n.links node := by
    cases hop <;>
      obtain ⟨n, hn, hlink⟩ := Option.bind_eq_some_iff.mp h <;>
      exact ⟨n, hn, by simp [ArtNode.links, Hop.holder, hlink]⟩
  obtain ⟨n, hn, hlink⟩ := hnode
  refine List.mem_append_right _ (List.mem_flatMap.mpr ⟨(n, node), ?_, hlink⟩)
  simpa [List.mem_zipIdx_iff_getElem?] using hn

/-- What a root leads to is the target of a checked link. -/
theorem mem_links_of_rootNode [CurveLibrary] {root : Root} {target : Nat}
    (h : doc.view.rootNode root = some target) :
    ∃ holder, holder.root? = some root ∧ ⟨holder, target⟩ ∈ doc.links := by
  cases root with
  | layer index =>
    obtain ⟨layer, hlayer, hart⟩ := Option.bind_eq_some_iff.mp h
    refine ⟨.layer index layer.name, rfl, List.mem_append_left _ (List.mem_append_left _ ?_)⟩
    refine List.mem_filterMap.mpr ⟨(layer, index), ?_, by simp [hart]⟩
    simpa [List.mem_zipIdx_iff_getElem?] using hlayer
  | pattern index =>
    obtain ⟨pattern, hpattern, hcontent⟩ := Option.bind_eq_some_iff.mp h
    refine ⟨.pattern index pattern.name, rfl, List.mem_append_left _ (List.mem_append_right _ ?_)⟩
    refine List.mem_filterMap.mpr ⟨(pattern, index), ?_, by simp [hcontent]⟩
    simpa [List.mem_zipIdx_iff_getElem?] using hpattern

namespace WellLinked

variable (h : doc.WellLinked)

include h

/-- Only one holder links to a node. -/
theorem holder_unique {a b : Holder} {target : Nat} (ha : ⟨a, target⟩ ∈ doc.links)
    (hb : ⟨b, target⟩ ∈ doc.links) : a = b := by
  have hlink := List.inj_on_of_nodup_map h.nodup ha hb rfl
  exact congrArg Link.holder hlink

variable [CurveLibrary]

/-- Only one root leads to a node. -/
theorem root_unique {root root' : Root} {node : Nat} (hr : doc.view.rootNode root = some node)
    (hr' : doc.view.rootNode root' = some node) : root = root' := by
  obtain ⟨holder, hroot, hmem⟩ := mem_links_of_rootNode hr
  obtain ⟨holder', hroot', hmem'⟩ := mem_links_of_rootNode hr'
  rw [h.holder_unique hmem hmem', hroot'] at hroot
  exact (Option.some.inj hroot).symm

/-- A node that a root leads to is linked to by no node. -/
theorem root_ne_hop {root : Root} {hop : Hop} {parent node : Nat}
    (hr : doc.view.rootNode root = some node) : doc.view.hop hop parent ≠ some node := by
  intro hlink
  obtain ⟨holder, hroot, hmem⟩ := mem_links_of_rootNode hr
  rw [h.holder_unique hmem (mem_links_of_hop hlink), Hop.root?_holder] at hroot
  cases hroot

/-- Only one node links to a node, and only once. -/
theorem hop_unique {hop hop' : Hop} {parent parent' node : Nat}
    (hlink : doc.view.hop hop parent = some node)
    (hlink' : doc.view.hop hop' parent' = some node) : hop = hop' ∧ parent = parent' :=
  Hop.holder_inj (h.holder_unique (mem_links_of_hop hlink) (mem_links_of_hop hlink'))

/-- Links lead to nodes of the document. -/
theorem hop_lt {hop : Hop} {parent node : Nat} (hlink : doc.view.hop hop parent = some node) :
    node < doc.nodes.size := h.target_lt _ (mem_links_of_hop hlink)

/-- Roots lead to nodes of the document. -/
theorem root_lt {root : Root} {node : Nat} (hr : doc.view.rootNode root = some node) :
    node < doc.nodes.size := by
  obtain ⟨holder, -, hmem⟩ := mem_links_of_rootNode hr
  exact h.target_lt _ hmem

/-- Walks end at nodes of the document. -/
theorem walk_lt {root : Root} {hops : List Hop} {node : Nat}
    (hw : doc.view.walk root hops = some node) : node < doc.nodes.size := by
  cases hops with
  | nil => exact h.root_lt hw
  | cons hop hops =>
    obtain ⟨parent, -, hlink⟩ := Option.bind_eq_some_iff.mp hw
    exact h.hop_lt hlink

/-- A node is reached from one root only, and along one walk only. -/
theorem walk_unique {root root' : Root} {hops hops' : List Hop} {node : Nat}
    (hw : doc.view.walk root hops = some node) (hw' : doc.view.walk root' hops' = some node) :
    root = root' ∧ hops = hops' := by
  -- from the end of both walks backwards, link by link
  induction hops generalizing hops' node with
  | nil =>
    cases hops' with
    | nil => exact ⟨h.root_unique hw hw', rfl⟩
    | cons hop' hops' =>
      obtain ⟨parent', -, hlink'⟩ := Option.bind_eq_some_iff.mp hw'
      exact absurd hlink' (h.root_ne_hop hw)
  | cons hop hops ih =>
    obtain ⟨parent, hparent, hlink⟩ := Option.bind_eq_some_iff.mp hw
    cases hops' with
    | nil => exact absurd hlink (h.root_ne_hop hw')
    | cons hop' hops' =>
      obtain ⟨parent', hparent', hlink'⟩ := Option.bind_eq_some_iff.mp hw'
      -- the last links agree, since a node is linked to once, and so do the walks before them
      obtain ⟨rfl, rfl⟩ := h.hop_unique hlink hlink'
      obtain ⟨rfl, rfl⟩ := ih hparent hparent'
      exact ⟨rfl, rfl⟩

/-- A walk meets no node twice. -/
theorem nodup_trail (root : Root) (hops : List Hop) : (doc.view.trail root hops).Nodup := by
  induction hops with
  | nil => cases hroot : doc.view.rootNode root <;> simp [Artwork.trail, hroot]
  | cons hop hops ih =>
    rw [Artwork.trail_cons]
    cases hw : doc.view.walk root (hop :: hops) with
    | none => exact ih
    | some node =>
      refine List.nodup_cons.mpr ⟨fun hmet => ?_, ih⟩
      -- a node met before would be the end of a shorter walk as well
      obtain ⟨part, hpart, hw'⟩ := Artwork.mem_trail_iff.mp hmet
      obtain ⟨-, rfl⟩ := h.walk_unique hw' hw
      exact absurd hpart.length_le (by simp)

omit [CurveLibrary] h in
/-- Different nodes are no more than there are nodes. -/
theorem length_le_of_nodup {nodes : List Nat} (hnodup : nodes.Nodup)
    (hlt : ∀ node ∈ nodes, node < doc.nodes.size) : nodes.length ≤ doc.nodes.size := by
  have hsub : nodes ⊆ List.range doc.nodes.size := fun node hmem =>
    List.mem_range.mpr (hlt node hmem)
  have hle := (hnodup.subperm hsub).length_le
  rwa [List.length_range] at hle

/-- A walk has fewer links than there are nodes. -/
theorem walk_length_lt {root : Root} {hops : List Hop} {node : Nat}
    (hw : doc.view.walk root hops = some node) : hops.length < doc.nodes.size := by
  have hlt : ∀ met ∈ doc.view.trail root hops, met < doc.nodes.size := by
    intro met hmet
    obtain ⟨part, -, hpart⟩ := Artwork.mem_trail_iff.mp hmet
    exact h.walk_lt hpart
  have hle := length_le_of_nodup (h.nodup_trail root hops) hlt
  rw [Artwork.length_trail hw] at hle
  exact hle

/-- A walk with as many links as there are nodes is nowhere. -/
theorem walk_eq_none {root : Root} {hops : List Hop} (hlong : doc.nodes.size ≤ hops.length) :
    doc.view.walk root hops = none := by
  cases hw : doc.view.walk root hops with
  | none => rfl
  | some node => exact absurd (h.walk_length_lt hw) (Nat.not_lt.mpr hlong)

/-- The bound on lists of siblings does not matter once it makes up for what is missing from the
walk so far to the number of nodes. -/
theorem siblingsUpTo_of_walk (root : Root) (hops : List Hop) (limit limit' : Nat)
    (hlimit : doc.nodes.size ≤ limit + hops.length)
    (hlimit' : doc.nodes.size ≤ limit' + hops.length) :
    doc.view.siblingsUpTo limit (doc.view.walk root hops) =
      doc.view.siblingsUpTo limit' (doc.view.walk root hops) := by
  -- a step along the siblings makes the walk longer by as much as it lowers the bounds
  induction limit generalizing limit' hops with
  | zero =>
    rw [h.walk_eq_none (by omega)]
    cases limit' <;> rfl
  | succ limit ih =>
    cases hw : doc.view.walk root hops with
    | none => cases limit' <;> rfl
    | some node =>
      have hlt := h.walk_length_lt hw
      cases limit' with
      | zero => omega
      | succ limit' =>
        have hrest := ih (.sibling :: hops) limit' (by rw [List.length_cons]; omega)
          (by rw [List.length_cons]; omega)
        rw [Artwork.walk_sibling hw] at hrest
        exact congrArg (node :: ·) hrest

/-- The list of siblings that a loop goes through is the whole one: it goes on to the end. -/
theorem siblings_of_walk {root : Root} {hops : List Hop} {node : Nat}
    (hw : doc.view.walk root hops = some node) :
    doc.view.siblings (some node) = node :: doc.view.siblings (doc.view.nextSibling node) := by
  have hcount : doc.view.nodeCount = doc.nodes.size := rfl
  rw [Artwork.siblings, Artwork.siblings, ← Artwork.walk_sibling hw,
    h.siblingsUpTo_of_walk root (.sibling :: hops) (doc.view.nodeCount + 1) doc.view.nodeCount
      (by rw [hcount]; omega) (by rw [hcount]; omega), Artwork.walk_sibling hw]
  rfl

/-- No node is its own child or sibling. -/
theorem not_self_linked (node : Nat) :
    doc.view.firstChild node ≠ some node ∧ doc.view.nextSibling node ≠ some node := by
  have hself : ∀ n, doc.nodes[node]? = some n → n.isSelfReferring node = false := fun n hn =>
    h.not_selfReferring (n, node) (by simpa [List.mem_zipIdx_iff_getElem?] using hn)
  constructor <;>
  · intro hlink
    obtain ⟨n, hn, hlink⟩ := Option.bind_eq_some_iff.mp hlink
    have hfalse := hself n hn
    simp [ArtNode.isSelfReferring, hlink] at hfalse

end WellLinked

/-- A box to build small documents with. -/
def unitBox : Box Float := { left := 0.0, top := 1.0, right := 1.0, bottom := 0.0 }

/-- A layer with a node and its two children; beside them two siblings in a cycle and a node that is
its own result, to which no root leads. -/
def strayCycles : ArtDocument where
  layers := #[{ name := "art", art := some 0 }]
  nodes := #[
    { bounds := unitBox, firstChild := some 1 },
    { bounds := unitBox, nextSibling := some 2 },
    { bounds := unitBox },
    { bounds := unitBox, nextSibling := some 4 },
    { bounds := unitBox, nextSibling := some 3 },
    { bounds := unitBox, result := some 5 }]

/-- The art that roots lead to in a document that passes the check is a forest. A node is reached
from one root only and along one walk only; no walk meets a node twice; a walk has fewer links than
there are nodes, so every descent ends; and lists of siblings go on to their end. The check gets
there without a look at cycles: it refuses nodes that are their own child or sibling, and accepts
cycles that no root leads to. -/
theorem reachable_art_forest [CurveLibrary] :
    (∀ doc : ArtDocument, doc.Valid →
      (∀ root root' hops hops' node, doc.view.walk root hops = some node →
        doc.view.walk root' hops' = some node → root = root' ∧ hops = hops') ∧
      (∀ root hops, (doc.view.trail root hops).Nodup) ∧
      (∀ root hops node, doc.view.walk root hops = some node → hops.length < doc.nodes.size) ∧
      (∀ root hops node, doc.view.walk root hops = some node →
        doc.view.siblings (some node) =
          node :: doc.view.siblings (doc.view.nextSibling node)) ∧
      ∀ node, doc.view.firstChild node ≠ some node ∧ doc.view.nextSibling node ≠ some node) ∧
    ∃ doc : ArtDocument, doc.Valid ∧
      (∃ a b, a ≠ b ∧ doc.view.nextSibling a = some b ∧ doc.view.nextSibling b = some a) ∧
      ∃ a, doc.view.pluginResult a = some a := by
  constructor
  · intro doc hvalid
    have h := hvalid.wellLinked
    exact ⟨fun _ _ _ _ _ => h.walk_unique, h.nodup_trail, fun _ _ _ => h.walk_length_lt,
      fun _ _ _ => h.siblings_of_walk, h.not_self_linked⟩
  · refine ⟨strayCycles, by rfl, ⟨3, 4, by decide, rfl, rfl⟩, 5, rfl⟩

/-- The second child in `strayCycles` is reached along one walk only, in spite of the cycles. -/
theorem reachable_art_forest_strayCycles :
    strayCycles.Valid ∧ strayCycles.view.walk (.layer 0) [.sibling, .child] = some 2 ∧
      ∀ root hops, strayCycles.view.walk root hops = some 2 →
        Root.layer 0 = root ∧ [.sibling, .child] = hops :=
  have hvalid : strayCycles.Valid := by decide +kernel
  ⟨hvalid, rfl, fun root hops =>
    (reachable_art_forest.1 strayCycles hvalid).1 (.layer 0) root _ hops 2 rfl⟩

end ArtDocument

end ArtCanvas
