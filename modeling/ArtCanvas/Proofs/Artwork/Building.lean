import ArtCanvas.Proofs.Artwork.Rows
import ArtCanvas.Proofs.Artwork.Walks

/-!
# What a builder makes of the rows it is given

A builder is called again and again, and every group, plugin group and layer comes with a row of
nodes. At the end the whole document is checked. This module compares the rows with what the
finished document shows along its siblings.

* `ArtBuilder.Call`: one call, and `Session` a builder with what it gave back and what rows it was
  given so far.
* `Session.AllowsAll`: a caller passes on only nodes that the builder gave back, and leaves the
  links of new nodes to the builder.
* `Session.Sound`: the links of the builder are those of the rows, which each allowed call keeps.
* `Session.rows_read_back`: what is read of each row if the check accepts the document. The check
  does not notice every row that names a node twice.
-/

namespace ArtCanvas

/-! ### Calls -/

/-- A call of a builder. -/
inductive ArtBuilder.Call where
  | node (n : ArtNode)
  | group (n : ArtNode) (children : Row)
  | symbol (n : ArtNode) (pattern : Nat)
  | pluginGroup (n : ArtNode) (result : Nat) (children : Row)
  | pattern (name : String) (content : Option Nat)
  | layer (name : String) (visible : Bool) (nodes : Row)

/-- What links to the start of a row. -/
inductive RowHolder where
  /-- A group or a plugin group, by its position. -/
  | node (index : Nat)
  /-- A layer, by its position. -/
  | layer (index : Nat)
  deriving DecidableEq, Repr

/-- A row that a builder was given, and what was to hold it. -/
structure GivenRow where
  /-- What is to link to the start of the row. -/
  holder : RowHolder
  /-- The nodes. -/
  nodes : Row
  deriving DecidableEq, Repr

namespace ArtBuilder.Call

/-- The answer of a builder to a call, and the builder after it. -/
def run (b : ArtBuilder) : Call → Nat × ArtBuilder
  | .node n => b.node n
  | .group n children => b.group n children
  | .symbol n index => b.symbol n index
  | .pluginGroup n result children => b.pluginGroup n result children
  | .pattern name content => b.pattern name content
  | .layer name visible nodes => b.layer name visible nodes

/-- The nodes that a call refers to. -/
def references : Call → List Nat
  | .node _ | .symbol _ _ => []
  | .group _ children => children
  | .pluginGroup _ result children => result :: children
  | .pattern _ content => content.toList
  | .layer _ _ nodes => nodes

/-- The new node that comes with a call. -/
def newNode? : Call → Option ArtNode
  | .node n | .group n _ | .symbol n _ | .pluginGroup n _ _ => some n
  | .pattern _ _ | .layer _ _ _ => none

/-- The row that comes with a call, once the answer to the call is known. -/
def row? (answer : Nat) : Call → Option GivenRow
  | .group _ children | .pluginGroup _ _ children => some ⟨.node answer, children⟩
  | .layer _ _ nodes => some ⟨.layer answer, nodes⟩
  | .node _ | .symbol _ _ | .pattern _ _ => none

end ArtBuilder.Call

/-- A builder, the nodes that it has given back, and the rows that it was given, in order. -/
structure Session where
  /-- The builder. -/
  builder : ArtBuilder := {}
  /-- The nodes that the builder gave back. -/
  returned : List Nat := []
  /-- The rows that the builder was given. -/
  rows : List GivenRow := []

namespace Session

/-- The session after one more call. -/
def call (s : Session) (c : ArtBuilder.Call) : Session where
  builder := (c.run s.builder).2
  returned := s.returned ++ (c.newNode?.map fun _ => (c.run s.builder).1).toList
  rows := s.rows ++ (c.row? (c.run s.builder).1).toList

/-- A call refers only to nodes that were given back, and brings no links of its own. -/
def Allows (s : Session) (c : ArtBuilder.Call) : Prop :=
  (∀ node ∈ c.references, node ∈ s.returned) ∧
    ∀ n ∈ c.newNode?, n.firstChild = none ∧ n.nextSibling = none ∧ n.result = none

/-- Whether a call is allowed depends on the nodes that there are. -/
instance (s : Session) (c : ArtBuilder.Call) : Decidable (s.Allows c) :=
  inferInstanceAs (Decidable (_ ∧ _))

/-- The session after several more calls. -/
def run (s : Session) (calls : List ArtBuilder.Call) : Session := calls.foldl call s

/-- Each of the calls is allowed when it is made. -/
def AllowsAll : Session → List ArtBuilder.Call → Prop
  | _, [] => True
  | s, c :: calls => s.Allows c ∧ (s.call c).AllowsAll calls

/-- Whether all calls are allowed is found out call by call. -/
instance decidableAllowsAll : ∀ (s : Session) calls, Decidable (s.AllowsAll calls)
  | _, [] => isTrue trivial
  | s, c :: calls =>
    have := decidableAllowsAll (s.call c) calls
    inferInstanceAs (Decidable (s.Allows c ∧ (s.call c).AllowsAll calls))

end Session

/-! ### Links of a document under construction -/

namespace ArtDocument

/-- Whether a document has what is to hold a row. -/
def Has (doc : ArtDocument) : RowHolder → Prop
  | .node index => index < doc.nodes.size
  | .layer index => index < doc.layers.size

/-- The start of the row that is held. -/
def rowStart [CurveLibrary] (doc : ArtDocument) : RowHolder → Option Nat
  | .node index => doc.view.firstChild index
  | .layer index => doc.view.firstArt index

/-- The links of a document along siblings, and those to the starts of rows, are the links of the
given rows. -/
structure Holds [CurveLibrary] (doc : ArtDocument) (rows : List GivenRow) : Prop where
  /-- Next siblings come from the rows. -/
  next : ∀ x, doc.view.nextSibling x = nextIn (rows.map GivenRow.nodes) x
  /-- Each row starts where its holder says. -/
  start : ∀ row ∈ rows, doc.rowStart row.holder = row.nodes.head?
  /-- The holders are there. -/
  has : ∀ row ∈ rows, doc.Has row.holder
  /-- No holder has two rows. -/
  holders_nodup : (rows.map GivenRow.holder).Nodup

variable [CurveLibrary] {doc doc' : ArtDocument} {rows : List GivenRow}

/-- What `doc'` adds to `doc` leaves the holders of `doc` as they are. -/
def KeepsHolders (doc doc' : ArtDocument) : Prop :=
  ∀ holder, doc.Has holder → doc'.Has holder ∧ doc'.rowStart holder = doc.rowStart holder

/-- A change that keeps holders and next siblings keeps the rows. -/
theorem Holds.keep (h : doc.Holds rows) (hkeep : KeepsHolders doc doc')
    (hnext : ∀ x, doc'.view.nextSibling x = doc.view.nextSibling x) : doc'.Holds rows where
  next x := (hnext x).trans (h.next x)
  start row hrow := (hkeep _ (h.has row hrow)).2.trans (h.start row hrow)
  has row hrow := (hkeep _ (h.has row hrow)).1
  holders_nodup := h.holders_nodup

/-- A change that keeps holders and adds the links of a row, and a holder for it, adds the row. -/
theorem Holds.add (h : doc.Holds rows) (hkeep : KeepsHolders doc doc') {row : GivenRow}
    (hnext : ∀ x, doc'.view.nextSibling x = (row.nodes.next? x).or (doc.view.nextSibling x))
    (hnew : ¬ doc.Has row.holder) (hhas : doc'.Has row.holder)
    (hstart : doc'.rowStart row.holder = row.nodes.head?) : doc'.Holds (rows ++ [row]) where
  next x := by
    rw [hnext, h.next, List.map_append, nextIn_append]
    rfl
  start other hother := by
    rcases List.mem_append.mp hother with hother | hother
    · exact (hkeep _ (h.has other hother)).2.trans (h.start other hother)
    · rwa [List.mem_singleton.mp hother]
  has other hother := by
    rcases List.mem_append.mp hother with hother | hother
    · exact (hkeep _ (h.has other hother)).1
    · rwa [List.mem_singleton.mp hother]
  holders_nodup := by
    rw [List.map_append, List.nodup_append]
    refine ⟨h.holders_nodup, List.nodup_singleton _, ?_⟩
    -- the other holders were there before
    rintro _ hold _ hsame rfl
    obtain ⟨other, hother, heq⟩ := List.mem_map.mp hold
    rw [List.map_singleton, List.mem_singleton] at hsame
    exact hnew (hsame ▸ heq ▸ h.has other hother)

/-- In a well-linked document, a node starts one row only, and then it is no next sibling. -/
theorem WellLinked.rowStart_unique (h : doc.WellLinked) {holder holder' : RowHolder} {y : Nat}
    (hy : doc.rowStart holder = some y) (hy' : doc.rowStart holder' = some y) :
    holder = holder' := by
  have hnode : ∀ {i}, doc.rowStart (.node i) = some y → doc.view.hop .child i = some y := id
  have hlayer : ∀ {i}, doc.rowStart (.layer i) = some y →
    doc.view.rootNode (.layer i) = some y := id
  -- a first child is the art of no layer, so both holders are of one kind
  cases holder with
  | node i =>
    cases holder' with
    | node j => rw [(h.hop_unique (hnode hy) (hnode hy')).2]
    | layer j => exact absurd (hnode hy) (h.root_ne_hop (hlayer hy'))
  | layer i =>
    cases holder' with
    | node j => exact absurd (hnode hy') (h.root_ne_hop (hlayer hy))
    | layer j =>
      cases h.root_unique (hlayer hy) (hlayer hy')
      rfl

theorem WellLinked.rowStart_ne_nextSibling (h : doc.WellLinked) {holder : RowHolder} {x y : Nat}
    (hy : doc.rowStart holder = some y) : doc.view.nextSibling x ≠ some y := by
  intro hx
  have hsibling : doc.view.hop .sibling x = some y := hx
  cases holder with
  | node i =>
    have hchild : doc.view.hop .child i = some y := hy
    cases (h.hop_unique hsibling hchild).1
  | layer i =>
    have hroot : doc.view.rootNode (.layer i) = some y := hy
    exact h.root_ne_hop hroot hsibling

/-- In a document that passes the check, the rows link to no node twice. -/
theorem Holds.linkedOnce (h : doc.Holds rows) (hvalid : doc.Valid) :
    LinkedOnce (rows.map GivenRow.nodes) := by
  have hlinks := hvalid.wellLinked
  refine ⟨?_, ?_, ?_⟩
  · -- two rows with one start would have one holder
    rw [List.filterMap_map, List.Nodup, List.pairwise_filterMap]
    have hholders : rows.Pairwise fun row row' => row.holder ≠ row'.holder :=
      List.pairwise_map.mp h.holders_nodup
    refine hholders.imp_of_mem fun {row row'} hrow hrow' hne y hy y' hy' heq => hne ?_
    subst heq
    exact hlinks.rowStart_unique ((h.start row hrow).trans hy) ((h.start row' hrow').trans hy')
  · -- the start of a row is no sibling
    intro x y hy
    obtain ⟨row, hrow, hhead⟩ := List.mem_filterMap.mp (List.filterMap_map .. ▸ hy)
    rw [← h.next]
    exact hlinks.rowStart_ne_nextSibling ((h.start row hrow).trans hhead)
  · -- and no node is the sibling of two
    intro x x' y hx hx'
    rw [← h.next] at hx hx'
    have hsibling : ∀ {i}, doc.view.nextSibling i = some y →
      doc.view.hop .sibling i = some y := id
    exact (hlinks.hop_unique (hsibling hx) (hsibling hx')).2

end ArtDocument

/-! ### What each call does -/

namespace ArtBuilder

variable {b : ArtBuilder} {rows : List GivenRow}

theorem size_linkSiblings (nodes : Array ArtNode) (row : Row) :
    (linkSiblings nodes row).size = nodes.size := by
  fun_induction linkSiblings nodes row with
  | case1 nodes a b rest ih => rw [ih, setNext, Array.size_modify]
  | case2 => rfl

/-- A node of the document gets the sibling that the row has for it, if there is one. -/
theorem getElem?_linkSiblings (nodes : Array ArtNode) (row : Row) (x : Nat) :
    (linkSiblings nodes row)[x]? =
      nodes[x]?.map fun n => { n with nextSibling := (row.next? x).or n.nextSibling } := by
  fun_induction linkSiblings nodes row with
  | case1 nodes a b rest ih =>
    rw [ih, setNext, Array.getElem?_modify, Row.next?]
    -- the first link is written first, so that the rest of the row can undo it
    by_cases hx : a = x
    · subst hx
      cases nodes[a]? <;> cases Row.next? (b :: rest) a <;> simp
    · simp [hx, Ne.symm hx]
  | case2 row nodes hshort =>
    rw [Row.next?]
    · simp
    · exact hshort

/-- Next siblings after a row was linked. -/
theorem nextSibling_linkSiblings {nodes : Array ArtNode} {row : Row}
    (hrow : ∀ x ∈ row, x < nodes.size) (x : Nat) :
    (linkSiblings nodes row)[x]?.bind ArtNode.nextSibling =
      (row.next? x).or (nodes[x]?.bind ArtNode.nextSibling) := by
  rw [getElem?_linkSiblings]
  cases hx : nodes[x]? with
  | some n => rfl
  | none =>
    -- outside of the document nothing is written, and the row names no node there
    have hout : nodes.size ≤ x := Array.getElem?_eq_none_iff.mp hx
    have hnone : row.next? x = none := Option.eq_none_iff_forall_ne_some.mpr fun y hy =>
      absurd (hrow x (Row.mem_of_next? hy).1) (Nat.not_lt.mpr hout)
    rw [hnone]
    rfl

/-- Linking a row changes no first child. -/
theorem firstChild_linkSiblings (nodes : Array ArtNode) (row : Row) (x : Nat) :
    (linkSiblings nodes row)[x]?.bind ArtNode.firstChild =
      nodes[x]?.bind ArtNode.firstChild := by
  rw [getElem?_linkSiblings]
  cases nodes[x]? <;> rfl

/-- A new node without a next sibling changes no next sibling. -/
theorem nextSibling_push (nodes : Array ArtNode) {n : ArtNode} (hn : n.nextSibling = none)
    (x : Nat) :
    (nodes.push n)[x]?.bind ArtNode.nextSibling = nodes[x]?.bind ArtNode.nextSibling := by
  rw [Array.getElem?_push]
  split
  case isTrue heq =>
    subst heq
    rw [Array.getElem?_eq_none_iff.mpr le_rfl]
    exact hn
  case isFalse => rfl

variable [CurveLibrary]

/-- A new node, and links between siblings, leave the holders as they are. -/
theorem keepsHolders_push (doc : ArtDocument) (row : Row) (n : ArtNode) :
    doc.KeepsHolders { doc with nodes := (linkSiblings doc.nodes row).push n } := by
  intro holder hhas
  cases holder with
  | node i =>
    have hi : i < doc.nodes.size := hhas
    refine ⟨?_, ?_⟩
    · change i < ((linkSiblings doc.nodes row).push n).size
      rw [Array.size_push, size_linkSiblings]
      omega
    · change ((linkSiblings doc.nodes row).push n)[i]?.bind ArtNode.firstChild = _
      rw [Array.getElem?_push, size_linkSiblings, if_neg (Nat.ne_of_lt hi)]
      exact firstChild_linkSiblings doc.nodes row i
  | layer i => exact ⟨hhas, rfl⟩

/-- A new layer, and links between siblings, leave the holders as they are. -/
theorem keepsHolders_pushLayer (doc : ArtDocument) (row : Row) (layer : ArtLayer) :
    doc.KeepsHolders
      { doc with nodes := linkSiblings doc.nodes row, layers := doc.layers.push layer } := by
  intro holder hhas
  cases holder with
  | node i =>
    have hi : i < doc.nodes.size := hhas
    refine ⟨?_, firstChild_linkSiblings doc.nodes row i⟩
    change i < (linkSiblings doc.nodes row).size
    rwa [size_linkSiblings]
  | layer i =>
    have hi : i < doc.layers.size := hhas
    refine ⟨?_, ?_⟩
    · change i < (doc.layers.push layer).size
      rw [Array.size_push]
      omega
    · change (doc.layers.push layer)[i]?.bind ArtLayer.art = _
      rw [Array.getElem?_push, if_neg (Nat.ne_of_lt hi)]
      rfl

variable {doc : ArtDocument}

/-- A new node without links of its own adds no row. -/
theorem holds_push (h : doc.Holds rows) {n : ArtNode} (hn : n.nextSibling = none) :
    ({ doc with nodes := doc.nodes.push n } : ArtDocument).Holds rows :=
  h.keep (keepsHolders_push doc [] n) (nextSibling_push doc.nodes hn)

/-- A new node whose first child is the start of a row adds the row. -/
theorem holds_pushRow (h : doc.Holds rows) {row : Row} (hrow : ∀ x ∈ row, x < doc.nodes.size)
    {n : ArtNode} (hfirst : n.firstChild = row.head?) (hn : n.nextSibling = none) :
    ({ doc with nodes := (linkSiblings doc.nodes row).push n } : ArtDocument).Holds
      (rows ++ [⟨.node (linkSiblings doc.nodes row).size, row⟩]) := by
  refine h.add (keepsHolders_push doc row n) (fun x => ?_) ?_ ?_ ?_
  -- the holder is the new node, at the end of the nodes
  · exact (nextSibling_push _ hn x).trans (nextSibling_linkSiblings hrow x)
  · rw [size_linkSiblings]
    exact Nat.lt_irrefl _
  · change (linkSiblings doc.nodes row).size < ((linkSiblings doc.nodes row).push n).size
    rw [Array.size_push]
    exact Nat.lt_succ_self _
  · refine Eq.trans ?_ hfirst
    exact congrArg (·.bind ArtNode.firstChild) Array.getElem?_push_size

/-- A new layer whose art is the start of a row adds the row. -/
theorem holds_pushLayer (h : doc.Holds rows) {row : Row} (hrow : ∀ x ∈ row, x < doc.nodes.size)
    {layer : ArtLayer} (hart : layer.art = row.head?) :
    ({ doc with
        nodes := linkSiblings doc.nodes row
        layers := doc.layers.push layer } : ArtDocument).Holds
      (rows ++ [⟨.layer doc.layers.size, row⟩]) := by
  refine h.add (keepsHolders_pushLayer doc row layer) (fun x => ?_) (Nat.lt_irrefl _) ?_ ?_
  · exact nextSibling_linkSiblings hrow x
  · change doc.layers.size < (doc.layers.push layer).size
    rw [Array.size_push]
    exact Nat.lt_succ_self _
  · refine Eq.trans ?_ hart
    exact congrArg (·.bind ArtLayer.art) Array.getElem?_push_size

/-- What a builder finishes is what it has, if that passes the check. -/
theorem build_eq_ok_iff : b.build = .ok doc ↔ b.doc.Valid ∧ doc = b.doc := by
  unfold build ArtDocument.validated ArtDocument.Valid
  cases b.doc.check with
  | ok => simp [eq_comm]
  | error fault => simp

end ArtBuilder

/-! ### What all calls do -/

namespace Session

/-- The builder has the links of the rows that it was given, and the nodes that it gave back. -/
structure Sound [CurveLibrary] (s : Session) : Prop where
  /-- The links are those of the rows. -/
  holds : s.builder.doc.Holds s.rows
  /-- The nodes are there. -/
  returned_lt : ∀ node ∈ s.returned, node < s.builder.doc.nodes.size

theorem sound_start [CurveLibrary] : Sound {} where
  holds := ⟨fun _ => rfl, fun _ h => absurd h List.not_mem_nil,
    fun _ h => absurd h List.not_mem_nil, List.nodup_nil⟩
  returned_lt := fun _ h => absurd h List.not_mem_nil

/-- An allowed call adds the links of its row and no others. -/
theorem Sound.holds_call [CurveLibrary] {s : Session} (h : s.Sound) {c : ArtBuilder.Call}
    (hc : s.Allows c) : (s.call c).builder.doc.Holds (s.call c).rows := by
  obtain ⟨hrefs, hnew⟩ := hc
  -- what was given back once is in the document, so the links of the row are written in full
  have hlt : ∀ node ∈ c.references, node < s.builder.doc.nodes.size :=
    fun node hnode => h.returned_lt node (hrefs node hnode)
  have hnone : c.row? (c.run s.builder).1 = none → (s.call c).rows = s.rows := by
    intro hrow
    rw [call, hrow, Option.toList_none, List.append_nil]
  cases c with
  | node n =>
    rw [hnone rfl]
    exact ArtBuilder.holds_push h.holds (hnew n rfl).2.1
  | symbol n index =>
    rw [hnone rfl]
    exact ArtBuilder.holds_push h.holds (hnew n rfl).2.1
  | group n children =>
    have hfirst : ({ n with firstChild := children.head? } : ArtNode).firstChild =
      children.head? := rfl
    exact ArtBuilder.holds_pushRow h.holds hlt hfirst (hnew n rfl).2.1
  | pluginGroup n result children =>
    exact ArtBuilder.holds_pushRow h.holds (fun x hx => hlt x (List.mem_cons_of_mem _ hx))
      (n := { n with kind := .pluginGroup, result := some result, firstChild := children.head? })
      rfl (hnew n rfl).2.1
  | pattern name content =>
    rw [hnone rfl]
    exact h.holds.keep (fun _ hhas => ⟨hhas, rfl⟩) fun _ => rfl
  | layer name visible nodes => exact ArtBuilder.holds_pushLayer h.holds hlt rfl

/-- A new node is the last one. -/
theorem size_call_of_newNode (s : Session) {c : ArtBuilder.Call} (hc : c.newNode?.isSome) :
    (s.call c).builder.doc.nodes.size = (c.run s.builder).1 + 1 := by
  cases c with
  | node n | group n children | symbol n index | pluginGroup n result children =>
    exact Array.size_push _
  | pattern name content | layer name visible nodes => cases hc

/-- No call removes nodes. -/
theorem size_le_size_call (s : Session) (c : ArtBuilder.Call) :
    s.builder.doc.nodes.size ≤ (s.call c).builder.doc.nodes.size := by
  cases c with
  | node n | symbol n index =>
    rw [size_call_of_newNode s rfl]
    exact Nat.le_succ _
  | group n children | pluginGroup n result children =>
    rw [size_call_of_newNode s rfl]
    exact le_trans (ArtBuilder.size_linkSiblings _ _).ge (Nat.le_succ _)
  | pattern name content => exact le_rfl
  | layer name visible nodes => exact (ArtBuilder.size_linkSiblings _ _).ge

theorem Sound.call [CurveLibrary] {s : Session} (h : s.Sound) {c : ArtBuilder.Call}
    (hc : s.Allows c) : (s.call c).Sound where
  holds := h.holds_call hc
  returned_lt node hnode := by
    rcases List.mem_append.mp hnode with hold | hanswer
    · exact lt_of_lt_of_le (h.returned_lt node hold) (s.size_le_size_call c)
    · obtain ⟨n, hn, rfl⟩ := Option.map_eq_some_iff.mp (Option.mem_toList.mp hanswer)
      rw [s.size_call_of_newNode (Option.isSome_of_mem hn)]
      exact Nat.lt_succ_self _

/-- After all allowed calls, the builder has the links of the rows that it was given. -/
theorem Sound.run [CurveLibrary] {s : Session} (h : s.Sound) {calls : List ArtBuilder.Call}
    (hcalls : s.AllowsAll calls) : (s.run calls).Sound := by
  induction calls generalizing s with
  | nil => exact h
  | cons c calls ih => exact ih (h.call hcalls.1) hcalls.2

/-- What a finished document shows of the rows that it was built from. From the start of a row on,
the nodes are met that no later row has, each in its last place, and then the siblings end. This is
the row as it was given exactly if the row names no node twice, and then no later row shares a node
with it. -/
theorem rows_read_back [CurveLibrary] {calls : List ArtBuilder.Call} (hcalls : AllowsAll {} calls)
    {doc : ArtDocument} (hbuild : (run {} calls).builder.build = .ok doc)
    (before : List GivenRow) (row : GivenRow) (later : List GivenRow)
    (hrows : (run {} calls).rows = before ++ row :: later) :
    ReadsAs doc.view.nextSibling (doc.rowStart row.holder)
        (row.nodes.kept (later.map GivenRow.nodes)) ∧
      (ReadsAs doc.view.nextSibling (doc.rowStart row.holder) row.nodes ↔ row.nodes.Nodup) ∧
      (row.nodes.Nodup → ∀ other ∈ later, row.nodes.Disjoint other.nodes) := by
  obtain ⟨hvalid, rfl⟩ := ArtBuilder.build_eq_ok_iff.mp hbuild
  have hholds := (sound_start.run hcalls).holds
  have hmap : (run {} calls).rows.map GivenRow.nodes =
      before.map GivenRow.nodes ++ row.nodes :: later.map GivenRow.nodes := by
    rw [hrows, List.map_append, List.map_cons]
  have hlinked := hholds.linkedOnce hvalid
  rw [hmap] at hlinked
  have hnext : (run {} calls).builder.doc.view.nextSibling =
      nextIn (before.map GivenRow.nodes ++ row.nodes :: later.map GivenRow.nodes) :=
    funext fun x => by rw [hholds.next, hmap]
  rw [hnext, hholds.start row (by simp [hrows])]
  refine ⟨hlinked.readsAs_kept, hlinked.readsAs_iff_nodup, fun hnodup other hother x hx hx' => ?_⟩
  refine hlinked.disjoint_later_of_nodup hnodup hx ?_
  exact List.mem_flatten.mpr ⟨other.nodes, List.mem_map_of_mem hother, hx'⟩

/-- A node to build small documents with. -/
def plainNode : ArtNode := { bounds := ArtDocument.unitBox }

/-- Two layers that share a node, of which the first names another node twice. -/
def overtakenRow : List ArtBuilder.Call :=
  [.node plainNode, .node plainNode, .node plainNode, .node plainNode, .node plainNode,
    .layer "a" true [0, 1, 2, 1, 3], .layer "b" true [2, 4]]

/-- The check accepts the document of `overtakenRow`, in which the first layer has lost the node
that it shares with the second one. -/
theorem rows_read_back_overtakenRow :
    AllowsAll {} overtakenRow ∧
      (run {} overtakenRow).rows = [⟨.layer 0, [0, 1, 2, 1, 3]⟩, ⟨.layer 1, [2, 4]⟩] ∧
      ∃ doc, (run {} overtakenRow).builder.build = .ok doc ∧
        ReadsAs doc.view.nextSibling (doc.rowStart (.layer 0)) [0, 1, 3] := by
  have hcalls : AllowsAll {} overtakenRow := by decide +kernel
  have hvalid : (run {} overtakenRow).builder.doc.Valid := by decide +kernel
  have hbuild := ArtBuilder.build_eq_ok_iff.mpr ⟨hvalid, rfl⟩
  refine ⟨hcalls, rfl, _, hbuild, ?_⟩
  exact (rows_read_back hcalls hbuild [] ⟨.layer 0, [0, 1, 2, 1, 3]⟩ [⟨.layer 1, [2, 4]⟩] rfl).1

/-- A layer that names its first node twice. -/
def repeatedNode : List ArtBuilder.Call :=
  [.node plainNode, .node plainNode, .layer "a" true [0, 0, 1]]

/-- The check accepts the document of `repeatedNode`, and the node is met only once. -/
theorem row_not_read_back_repeatedNode :
    AllowsAll {} repeatedNode ∧ ∃ doc, (run {} repeatedNode).builder.build = .ok doc ∧
      (run {} repeatedNode).rows = [⟨.layer 0, [0, 0, 1]⟩] ∧
      ReadsAs doc.view.nextSibling (doc.rowStart (.layer 0)) [0, 1] ∧
      ¬ ReadsAs doc.view.nextSibling (doc.rowStart (.layer 0)) [0, 0, 1] := by
  have hvalid : (run {} repeatedNode).builder.doc.Valid := by decide +kernel
  refine ⟨by decide +kernel, _, ArtBuilder.build_eq_ok_iff.mpr ⟨hvalid, rfl⟩, rfl, ?_, ?_⟩
  · decide +kernel
  · decide +kernel

end Session

end ArtCanvas
