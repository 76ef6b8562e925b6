import ArtCanvas.Proofs.Scan.Once

/-!
# What is in sight

Hidden nodes and invisible layers cut art off from the compiler. This module says which nodes are
cut off, which ones the compiler can come to, and when two pieces of art look the same to it.

* `Artwork.OutOfSight`: the nodes in invisible layers, and below hidden nodes.
* `Artwork.InSight`: the nodes that a loop along siblings or a descent below visible nodes meets.
* `Artwork.SameSight`: two pieces of art have the same in sight.
* `ArtDocument.SameInSight`: two documents differ out of sight only.
* `ArtDocument.sameSight`: two such documents that pass the check have the same in sight.
-/

namespace ArtCanvas

namespace Artwork

section Sight

variable (art : Artwork)

/-- The node holds the art of a pattern, or the result of a plugin group. Such art is shown whether
or not the node that holds it is hidden. -/
def HoldsContent (node : Nat) : Prop :=
  (∃ pattern, art.patternContent pattern = some node) ∨
    ∃ group, art.kind group = .pluginGroup ∧ art.pluginResult group = some node

/-- The node is hidden, and with it all that is below it. -/
def Masks (node : Nat) : Prop := art.isHidden node = true ∧ ¬ art.HoldsContent node

/-- The node belongs to the art of an invisible layer, or to a tree below a hidden node. -/
inductive OutOfSight : Nat → Prop
  | layer {layer node : Nat} : art.isLayerVisible layer = false →
      art.firstArt layer = some node → OutOfSight node
  | masked {hop : Hop} {parent node : Nat} : art.Masks parent → hop ≠ .sibling →
      art.hop hop parent = some node → OutOfSight node
  | onward {hop : Hop} {parent node : Nat} : OutOfSight parent →
      art.hop hop parent = some node → OutOfSight node

/-- Whether art is looked at from a root: from a layer if it is visible, from a pattern always. -/
def isRootShown : Root → Bool
  | .layer index => art.isLayerVisible index
  | .pattern _ => true

/-- The compiler can come to the node. It goes on along the siblings of every node, and below those
that are not hidden. -/
inductive InSight : Nat → Prop
  | root {root : Root} {node : Nat} : art.isRootShown root = true →
      art.rootNode root = some node → InSight node
  | sibling {node next : Nat} : InSight node → art.nextSibling node = some next → InSight next
  | child {node below : Nat} : InSight node → art.isHidden node = false →
      art.firstChild node = some below → InSight below
  | result {node group below : Nat} : InSight node → art.isHidden node = false →
      art.kind node = .pluginGroup → art.pluginResult node = some group →
      art.firstChild group = some below → InSight below

/-- The compiler can come to what starts at `first`. -/
def SightFrom (first : Option Nat) : Prop := ∀ node, first = some node → art.InSight node

/-- Two pieces of art say the same about a node, apart from what hides it and what is beside it. -/
structure SameNode (art art' : Artwork) (node : Nat) : Prop where
  kind : art.kind node = art'.kind node
  bounds : art.bounds node = art'.bounds node
  opacity : art.opacity node = art'.opacity node
  paint : art.paint node = art'.paint node
  symbolPattern : art.symbolPattern node = art'.symbolPattern node
  pluginResult : art.pluginResult node = art'.pluginResult node
  firstChild : art.firstChild node = art'.firstChild node
  path : art.path node = art'.path node
  solidColor : art.solidColor node = art'.solidColor node
  gradientStops : art.gradientStops node = art'.gradientStops node
  strokeWidth : art.strokeWidth node = art'.strokeWidth node

/-- Two pieces of art have the same in sight. -/
structure SameSight (art art' : Artwork) : Prop where
  visibleLayers : art.visibleLayers = art'.visibleLayers
  layerName : ∀ layer ∈ art.visibleLayers, art.layerName layer = art'.layerName layer
  firstArt : ∀ layer ∈ art.visibleLayers, art.firstArt layer = art'.firstArt layer
  patternSource : ∀ handle, art.patternSource handle = art'.patternSource handle
  isHidden : ∀ node, art.InSight node → art.isHidden node = art'.isHidden node
  sameNode : ∀ node, art.InSight node → art.isHidden node = false → art.SameNode art' node
  group : ∀ node group, art.InSight node → art.isHidden node = false →
    art.kind node = .pluginGroup → art.pluginResult node = some group →
    art.firstChild group = art'.firstChild group
  siblings : ∀ first, art.SightFrom first → art.siblings first = art'.siblings first

end Sight

variable {art art' : Artwork}

/-- Where there is no art, nothing is out of sight. -/
theorem sightFrom_none : art.SightFrom none := fun _ h => nomatch h

/-- What is below a node that is shown is in sight. -/
theorem InSight.sightFrom_child {node : Nat} (h : art.InSight node)
    (hvisible : art.isHidden node = false) : art.SightFrom (art.firstChild node) :=
  fun _ hbelow => h.child hvisible hbelow

/-- So is the result of a plugin group that is shown. -/
theorem InSight.sightFrom_group {node group : Nat} (h : art.InSight node)
    (hvisible : art.isHidden node = false) (hkind : art.kind node = .pluginGroup)
    (hgroup : art.pluginResult node = some group) : art.SightFrom (art.firstChild group) :=
  fun _ hbelow => h.result hvisible hkind hgroup hbelow

/-- The art of every pattern is in sight. -/
theorem sightFrom_patternContent (handle : Nat) : art.SightFrom (art.patternContent handle) :=
  fun node hnode => @InSight.root art (.pattern handle) node rfl hnode

/-- So is the art of a visible layer. -/
theorem sightFrom_firstArt {layer : Nat} (hlayer : layer ∈ art.visibleLayers) :
    art.SightFrom (art.firstArt layer) :=
  fun node hnode => @InSight.root art (.layer layer) node (List.mem_filter.mp hlayer).2 hnode

/-- The siblings of what is in sight are in sight. -/
theorem SightFrom.of_mem_siblings {first : Option Nat} (h : art.SightFrom first) {node : Nat}
    (hmem : node ∈ art.siblings first) : art.InSight node := by
  unfold siblings at hmem
  -- on the bound of the list
  generalize art.nodeCount + 1 = limit at hmem
  induction limit generalizing first with
  | zero => cases hmem
  | succ limit ih =>
    cases first with
    | none => cases hmem
    | some sibling =>
      have hsibling : art.InSight sibling := h sibling rfl
      rcases List.mem_cons.mp hmem with rfl | hlater
      · exact hsibling
      · exact ih (fun _ hnext => hsibling.sibling hnext) hlater

/-- The compiler comes to nodes along walks. -/
theorem InSight.exists_walk {node : Nat} (h : art.InSight node) :
    ∃ root hops, art.walk root hops = some node := by
  induction h with
  | @root root node _ hnode => exact ⟨root, [], hnode⟩
  | sibling _ hnext ih =>
    obtain ⟨root, hops, hw⟩ := ih
    exact ⟨root, .sibling :: hops, (walk_sibling hw).trans hnext⟩
  | child _ _ hbelow ih =>
    obtain ⟨root, hops, hw⟩ := ih
    exact ⟨root, .child :: hops, (walk_child hw).trans hbelow⟩
  | result _ _ _ hgroup hbelow ih =>
    obtain ⟨root, hops, hw⟩ := ih
    refine ⟨root, .child :: .result :: hops, (walk_result_child hw).trans ?_⟩
    rw [hgroup, Option.bind_some, hbelow]

/-- A loop along siblings that comes to an end does the same wherever the same nodes are beside each
other. -/
theorem Chain.congr {first : Option Nat} {nodes : List Nat} (h : art.Chain first nodes)
    (hnext : ∀ node ∈ nodes, art.nextSibling node = art'.nextSibling node) :
    art'.Chain first nodes := by
  induction h with
  | nil => exact .nil
  | @cons node nodes _ ih =>
    refine .cons ?_
    rw [← hnext node List.mem_cons_self]
    exact ih fun later hlater => hnext later (List.mem_cons_of_mem _ hlater)

/-- There is only one list of siblings from a node on. -/
theorem Chain.unique {first : Option Nat} {nodes nodes' : List Nat} (h : art.Chain first nodes)
    (h' : art.Chain first nodes') : nodes = nodes' := by
  induction h generalizing nodes' with
  | nil =>
    cases h'
    rfl
  | cons _ ih =>
    cases h' with
    | cons hrest => rw [ih hrest]

end Artwork

namespace ArtDocument

variable {doc doc' : ArtDocument}

namespace WellLinked

variable [CurveLibrary] (h : doc.WellLinked)

include h

/-- What a root leads to is out of sight only if the root is. -/
theorem not_outOfSight_root {root : Root} {node : Nat} (hshown : doc.view.isRootShown root = true)
    (hnode : doc.view.rootNode root = some node) : ¬ doc.view.OutOfSight node := by
  intro hout
  cases hout with
  | @layer layer node hlayer hfirst =>
    -- a single root leads to the node, and it would be an invisible layer
    change doc.view.rootNode (.layer layer) = some node at hfirst
    obtain rfl := h.root_unique hnode hfirst
    exact Bool.false_ne_true (hlayer.symm.trans hshown)
  | masked _ _ hlink => exact h.root_ne_hop hnode hlink
  | onward _ hlink => exact h.root_ne_hop hnode hlink

/-- What a node links to is out of sight only if the node is, or hides what is below it. -/
theorem not_outOfSight_hop (hop : Hop) {parent node : Nat} (hparent : ¬ doc.view.OutOfSight parent)
    (hmasks : doc.view.Masks parent → hop = .sibling)
    (hlink : doc.view.hop hop parent = some node) : ¬ doc.view.OutOfSight node := by
  intro hout
  cases hout with
  | @layer layer node _ hfirst =>
    change doc.view.rootNode (.layer layer) = some node at hfirst
    exact h.root_ne_hop hfirst hlink
  | masked hmasked hne hlink' =>
    -- a single node links to the node, and only once
    obtain ⟨rfl, rfl⟩ := h.hop_unique hlink hlink'
    exact hne (hmasks hmasked)
  | onward hout hlink' =>
    obtain ⟨-, rfl⟩ := h.hop_unique hlink hlink'
    exact hparent hout

/-- The result of a visible plugin group is not out of sight. -/
theorem not_outOfSight_group {node group : Nat} (hnode : ¬ doc.view.OutOfSight node)
    (hvisible : doc.view.isHidden node = false)
    (hgroup : doc.view.pluginResult node = some group) : ¬ doc.view.OutOfSight group :=
  h.not_outOfSight_hop .result hnode
    (fun hmasks => absurd (hmasks.1.symm.trans hvisible) nofun) hgroup

/-- The compiler cannot come to what is out of sight. -/
theorem not_outOfSight_of_inSight {node : Nat} (hsight : doc.view.InSight node) :
    ¬ doc.view.OutOfSight node := by
  -- the last step into sight is the only link to the node, so it would also be the one out of sight
  induction hsight with
  | root hshown hnode => exact h.not_outOfSight_root hshown hnode
  | sibling _ hnext ih => exact h.not_outOfSight_hop .sibling ih (fun _ => rfl) hnext
  | child _ hvisible hbelow ih =>
    exact h.not_outOfSight_hop .child ih
      (fun hmasks => absurd (hmasks.1.symm.trans hvisible) nofun) hbelow
  | @result node group below _ hvisible hkind hgroup hbelow ih =>
    -- what holds a result hides nothing
    have hholds : doc.view.HoldsContent group := Or.inr ⟨node, hkind, hgroup⟩
    exact h.not_outOfSight_hop .child (h.not_outOfSight_group ih hvisible hgroup)
      (fun hmasks => absurd hholds hmasks.2) hbelow

/-- A loop along siblings that are in sight comes to an end. -/
theorem ends_of_sightFrom {first : Option Nat} (hfirst : doc.view.SightFrom first) :
    doc.view.Ends first := by
  cases first with
  | none => exact .nil
  | some node =>
    obtain ⟨root, hops, hw⟩ := (hfirst node rfl).exists_walk
    rw [← hw]
    exact h.ends_of_walk root hops

end WellLinked

/-- Two documents differ out of sight only. They have as many layers, which are visible in both or
in none, and the same visible layers and patterns. A node that is out of sight in neither is the
same in both, or it is hidden in both and followed by the same sibling. -/
structure SameInSight [CurveLibrary] (doc doc' : ArtDocument) : Prop where
  layerCount : doc.layers.size = doc'.layers.size
  layers : ∀ (i : Nat) (layer layer' : ArtLayer), doc.layers[i]? = some layer →
    doc'.layers[i]? = some layer' →
    layer.visible = layer'.visible ∧ (layer.visible = true → layer = layer')
  patterns : doc.patterns = doc'.patterns
  nodes : ∀ i : Nat, ¬ doc.view.OutOfSight i → ¬ doc'.view.OutOfSight i →
    doc.nodes[i]? = doc'.nodes[i]? ∨
      (doc.view.Masks i ∧ doc'.view.Masks i ∧ doc.view.nextSibling i = doc'.view.nextSibling i)

namespace SameInSight

variable [CurveLibrary]

/-- A layer is visible in both documents or in none, and a visible one is the same in both. -/
theorem layer_cases (h : doc.SameInSight doc') (i : Nat) :
    doc.view.isLayerVisible i = doc'.view.isLayerVisible i ∧
      (doc.view.isLayerVisible i = true → doc.layers[i]? = doc'.layers[i]?) := by
  change (doc.layers[i]?.map ArtLayer.visible).getD false =
      (doc'.layers[i]?.map ArtLayer.visible).getD false ∧
    ((doc.layers[i]?.map ArtLayer.visible).getD false = true → doc.layers[i]? = doc'.layers[i]?)
  rcases Nat.lt_or_ge i doc.layers.size with hlt | hge
  · have hget := Array.getElem?_eq_getElem hlt
    have hget' := Array.getElem?_eq_getElem (h.layerCount ▸ hlt)
    obtain ⟨hvisible, hsame⟩ := h.layers i _ _ hget hget'
    rw [hget, hget']
    exact ⟨hvisible, fun hshown => congrArg some (hsame hshown)⟩
  · rw [Array.getElem?_eq_none hge, Array.getElem?_eq_none (h.layerCount ▸ hge)]
    exact ⟨rfl, fun _ => rfl⟩

/-- Two documents that are the same in sight are so in either order. -/
theorem symm (h : doc.SameInSight doc') : doc'.SameInSight doc where
  layerCount := h.layerCount.symm
  layers i layer layer' hlayer hlayer' := by
    obtain ⟨hvisible, hsame⟩ := h.layers i layer' layer hlayer' hlayer
    exact ⟨hvisible.symm, fun hshown => (hsame (hvisible.trans hshown)).symm⟩
  patterns := h.patterns.symm
  nodes i hout hout' := by
    rcases h.nodes i hout' hout with hsame | ⟨hmasks, hmasks', hnext⟩
    · exact Or.inl hsame.symm
    · exact Or.inr ⟨hmasks', hmasks, hnext.symm⟩

/-- The same roots are shown. -/
theorem isRootShown_eq (h : doc.SameInSight doc') (root : Root) :
    doc.view.isRootShown root = doc'.view.isRootShown root := by
  cases root with
  | layer index => exact (h.layer_cases index).1
  | pattern index => rfl

/-- Roots that are shown lead to the same node. -/
theorem rootNode_eq (h : doc.SameInSight doc') (root : Root)
    (hshown : doc.view.isRootShown root = true) :
    doc.view.rootNode root = doc'.view.rootNode root := by
  cases root with
  | layer index => exact congrArg (·.bind ArtLayer.art) ((h.layer_cases index).2 hshown)
  | pattern index => exact congrArg (fun patterns => patterns[index]?.bind _) h.patterns

/-- A node that is the same in both documents looks the same. -/
theorem sameNode {node : Nat} (hnode : doc.nodes[node]? = doc'.nodes[node]?) :
    doc.view.SameNode doc'.view node := by
  constructor <;> simp only [view, outline, paintOf, hnode]

/-- It is hidden in both or in none. -/
theorem isHidden_eq {node : Nat} (hnode : doc.nodes[node]? = doc'.nodes[node]?) :
    doc.view.isHidden node = doc'.view.isHidden node :=
  congrArg (fun n => (n.map ArtNode.hidden).getD true) hnode

section Both

variable (h : doc.WellLinked) (h' : doc'.WellLinked) (hsame : doc.SameInSight doc')

include h h' hsame

/-- A node that is in sight in both documents and visible is the same in both. -/
theorem node_eq {node : Nat} (hsight : doc.view.InSight node) (hsight' : doc'.view.InSight node)
    (hvisible : doc.view.isHidden node = false) : doc.nodes[node]? = doc'.nodes[node]? := by
  rcases hsame.nodes node (h.not_outOfSight_of_inSight hsight)
    (h'.not_outOfSight_of_inSight hsight') with heq | ⟨⟨hhidden, -⟩, -, -⟩
  · exact heq
  · exact absurd (hhidden.symm.trans hvisible) nofun

/-- The result of a plugin group that is in sight and visible is the same in both documents. -/
theorem group_eq {node group : Nat} (hsight : doc.view.InSight node)
    (hsight' : doc'.view.InSight node) (hvisible : doc.view.isHidden node = false)
    (hkind : doc.view.kind node = .pluginGroup) (hgroup : doc.view.pluginResult node = some group) :
    doc.nodes[group]? = doc'.nodes[group]? := by
  have heq := hsame.node_eq h h' hsight hsight' hvisible
  have hout := h.not_outOfSight_group (h.not_outOfSight_of_inSight hsight) hvisible hgroup
  have hout' := h'.not_outOfSight_group (h'.not_outOfSight_of_inSight hsight')
    ((isHidden_eq heq).symm.trans hvisible) ((sameNode heq).pluginResult.symm.trans hgroup)
  rcases hsame.nodes group hout hout' with heq | ⟨⟨-, hholds⟩, -, -⟩
  · exact heq
  · exact absurd (Or.inr ⟨node, hkind, hgroup⟩) hholds

/-- What is in sight in one of the documents is in sight in the other one. -/
theorem inSight {node : Nat} (hsight : doc.view.InSight node) : doc'.view.InSight node := by
  -- each step starts at a node that is in sight in both, and so is a step of the other document
  induction hsight with
  | @root root node hshown hnode =>
    exact .root ((hsame.isRootShown_eq root).symm.trans hshown)
      ((hsame.rootNode_eq root hshown).symm.trans hnode)
  | @sibling node next hsight hnext ih =>
    -- a hidden node is followed by the same sibling
    refine ih.sibling (Eq.trans ?_ hnext)
    rcases hsame.nodes node (h.not_outOfSight_of_inSight hsight)
      (h'.not_outOfSight_of_inSight ih) with heq | ⟨-, -, heq⟩
    · exact congrArg (·.bind ArtNode.nextSibling) heq.symm
    · exact heq.symm
  | @child node below hsight hvisible hbelow ih =>
    have heq := (hsame.node_eq h h' hsight ih hvisible).symm
    exact ih.child ((isHidden_eq heq).trans hvisible) ((sameNode heq).firstChild.trans hbelow)
  | @result node group below hsight hvisible hkind hgroup hbelow ih =>
    have heq := (hsame.node_eq h h' hsight ih hvisible).symm
    have hgroupEq := (hsame.group_eq h h' hsight ih hvisible hkind hgroup).symm
    exact ih.result ((isHidden_eq heq).trans hvisible) ((sameNode heq).kind.trans hkind)
      ((sameNode heq).pluginResult.trans hgroup) ((sameNode hgroupEq).firstChild.trans hbelow)

/-- What is in sight is hidden in both documents or in none, and followed by the same sibling. -/
theorem hidden_and_next {node : Nat} (hsight : doc.view.InSight node) :
    doc.view.isHidden node = doc'.view.isHidden node ∧
      doc.view.nextSibling node = doc'.view.nextSibling node := by
  rcases hsame.nodes node (h.not_outOfSight_of_inSight hsight)
    (h'.not_outOfSight_of_inSight (hsame.inSight h h' hsight)) with
    heq | ⟨⟨hhidden, -⟩, ⟨hhidden', -⟩, hnext⟩
  · exact ⟨isHidden_eq heq, congrArg (·.bind ArtNode.nextSibling) heq⟩
  · exact ⟨hhidden.trans hhidden'.symm, hnext⟩

/-- A node that holds the art of a pattern is the same in both documents. -/
theorem content_eq {handle node : Nat} (hnode : doc.view.patternContent handle = some node) :
    doc.nodes[node]? = doc'.nodes[node]? := by
  have hsight := Artwork.sightFrom_patternContent handle node hnode
  rcases hsame.nodes node (h.not_outOfSight_of_inSight hsight)
    (h'.not_outOfSight_of_inSight (hsame.inSight h h' hsight)) with heq | ⟨⟨-, hholds⟩, -, -⟩
  · exact heq
  · exact absurd (Or.inl ⟨handle, hnode⟩) hholds

/-- Loops along siblings that are in sight meet the same nodes in both documents. -/
theorem siblings_eq {first : Option Nat} (hfirst : doc.view.SightFrom first) :
    doc.view.siblings first = doc'.view.siblings first := by
  have hfirst' : doc'.view.SightFrom first := fun node hnode =>
    hsame.inSight h h' (hfirst node hnode)
  -- the loop of one document is one of the other as well, and a loop that ends is the only one
  have hchain : doc'.view.Chain first (doc.view.siblings first) :=
    (h.ends_of_sightFrom hfirst).congr fun node hmem =>
      (hsame.hidden_and_next h h' (hfirst.of_mem_siblings hmem)).2
  exact hchain.unique (h'.ends_of_sightFrom hfirst')

end Both

end SameInSight

/-- Two documents that pass the check and differ out of sight only have the same in sight. -/
theorem sameSight [CurveLibrary] (h : doc.WellLinked) (h' : doc'.WellLinked)
    (hsame : doc.SameInSight doc') :
    doc.view.SameSight doc'.view where
  visibleLayers := by
    have hcount : doc.view.layerCount = doc'.view.layerCount := hsame.layerCount
    have hvisible : doc.view.isLayerVisible = doc'.view.isLayerVisible :=
      funext fun i => (hsame.layer_cases i).1
    rw [Artwork.visibleLayers, Artwork.visibleLayers, hcount, hvisible]
  layerName layer hlayer :=
    congrArg (fun l => (l.map ArtLayer.name).getD "")
      ((hsame.layer_cases layer).2 (List.mem_filter.mp hlayer).2)
  firstArt layer hlayer :=
    hsame.rootNode_eq (.layer layer) (List.mem_filter.mp hlayer).2
  patternSource handle := by
    have hcontent := hsame.rootNode_eq (.pattern handle) rfl
    change doc.view.patternContent handle = doc'.view.patternContent handle at hcontent
    have hname : doc.view.patternName handle = doc'.view.patternName handle :=
      congrArg (fun patterns => (patterns[handle]?.map ArtPattern.name).getD "") hsame.patterns
    rw [Artwork.patternSource, Artwork.patternSource, hname, ← hcontent]
    -- the box of a pattern is that of the node with its art
    cases hnode : doc.view.patternContent handle with
    | none => rfl
    | some node =>
      have hbounds := (SameInSight.sameNode (hsame.content_eq h h' hnode)).bounds
      rw [Option.map_some, Option.map_some, hbounds]
  isHidden node hsight := (hsame.hidden_and_next h h' hsight).1
  sameNode node hsight hvisible :=
    SameInSight.sameNode (hsame.node_eq h h' hsight (hsame.inSight h h' hsight) hvisible)
  group node group hsight hvisible hkind hgroup :=
    (SameInSight.sameNode
      (hsame.group_eq h h' hsight (hsame.inSight h h' hsight) hvisible hkind hgroup)).firstChild
  siblings first hfirst := hsame.siblings_eq h h' hfirst

end ArtDocument

end ArtCanvas
