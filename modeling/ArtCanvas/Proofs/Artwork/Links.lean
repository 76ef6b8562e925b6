import ArtCanvas.Artwork.Validity

/-!
# What the check of the links accepts

`ArtDocument.checkLinks` goes through all links of a document once and marks their targets. It never
looks further than at one link, and this module says exactly what it accepts.

* `ArtDocument.links`: all links, in the order in which they are checked.
* `ArtDocument.WellLinked`: every link leads to a node, no two lead to the same one, and no node is
  its own child or sibling.
* `ArtDocument.checkLinks_accepts_iff`: the check accepts the well-linked documents and no others.
* `ArtDocument.Valid.wellLinked`: a document that passes the whole check is well-linked.
-/

namespace ArtCanvas

namespace ArtDocument

/-- The links that the nodes of a list hold, each node given with its position. -/
def linksOfNodes (nodes : List (ArtNode × Nat)) : List Link :=
  nodes.flatMap fun (n, i) => n.links i

/-- All links of a document, in the order in which they are checked. -/
def links (doc : ArtDocument) : List Link :=
  doc.rootLinks ++ linksOfNodes doc.nodes.toList.zipIdx

/-- Every link leads to a node, no two lead to the same one, and no node is its own child or
sibling. -/
structure WellLinked (doc : ArtDocument) : Prop where
  /-- Links lead to nodes. -/
  target_lt : ∀ link ∈ doc.links, link.target < doc.nodes.size
  /-- Different links lead to different nodes. -/
  nodup : (doc.links.map Link.target).Nodup
  /-- No node is its own child or sibling. -/
  not_selfReferring : ∀ node ∈ doc.nodes.toList.zipIdx, node.1.isSelfReferring node.2 = false

/-- `marked` marks exactly the targets of `links`, which are different and below `size`. -/
structure Marks (size : Nat) (links : List Link) (marked : Array Bool) : Prop where
  /-- There is one mark for each node. -/
  size_eq : marked.size = size
  /-- Only nodes are targets. -/
  target_lt : ∀ link ∈ links, link.target < size
  /-- No two targets are equal. -/
  nodup : (links.map Link.target).Nodup
  /-- The marks show the targets. -/
  mark : ∀ i < size, marked[i]? = some (decide (i ∈ links.map Link.target))

/-- Nothing is marked at first. -/
theorem marks_nil (size : Nat) : Marks size [] (Array.replicate size false) where
  size_eq := Array.size_replicate
  target_lt := by simp
  nodup := by simp
  mark i hi := by simp [hi]

/-- Following a link succeeds exactly if its target exists and is not marked yet, and then it marks
the target. -/
theorem follow_eq_ok_iff {marked marked' : Array Bool} {link : Link} :
    follow marked link = .ok marked' ↔
      marked[link.target]? = some false ∧
        marked' = marked.setIfInBounds link.target true := by
  unfold follow
  cases hmark : marked[link.target]? with
  | none => simp
  | some mark => cases mark <;> simp [eq_comm]

/-- Following one more link keeps the marks right. -/
theorem Marks.follow {size : Nat} {links : List Link} {marked marked' : Array Bool} {link : Link}
    (h : Marks size links marked) (hf : ArtDocument.follow marked link = .ok marked') :
    Marks size (links ++ [link]) marked' := by
  obtain ⟨hfree, rfl⟩ := follow_eq_ok_iff.mp hf
  have hlt : link.target < size := by
    rw [← h.size_eq]
    exact (Array.getElem?_eq_some_iff.mp hfree).1
  have hnew : link.target ∉ links.map Link.target := by
    rw [h.mark _ hlt] at hfree
    simpa using hfree
  refine ⟨by simp [h.size_eq], ?_, ?_, ?_⟩
  · intro other hother
    rcases List.mem_append.mp hother with hold | hsame
    · exact h.target_lt other hold
    · rw [List.mem_singleton.mp hsame]
      exact hlt
  · rw [List.map_append, List.nodup_append]
    refine ⟨h.nodup, by simp, ?_⟩
    rintro a ha b hb rfl
    rw [List.map_singleton, List.mem_singleton] at hb
    exact hnew (hb ▸ ha)
  · intro i hi
    -- the mark of the target is the only one that changes
    rw [Array.getElem?_setIfInBounds]
    by_cases heq : link.target = i
    · subst heq
      simp [h.size_eq, hi]
    · rw [if_neg heq, h.mark i hi]
      simp [Ne.symm heq]

/-- Following several links keeps the marks right. -/
theorem Marks.foldlM_follow {size : Nat} {links : List Link} {marked marked' : Array Bool}
    (h : Marks size links marked) {more : List Link}
    (hf : more.foldlM ArtDocument.follow marked = .ok marked') :
    Marks size (links ++ more) marked' := by
  induction more generalizing links marked with
  | nil =>
    cases hf
    simpa using h
  | cons link more ih =>
    rw [List.foldlM_cons] at hf
    cases hfirst : ArtDocument.follow marked link with
    | error fault => simp [hfirst, bind, Except.bind] at hf
    | ok marked₁ =>
      rw [hfirst] at hf
      simpa using ih (h.follow hfirst) hf

/-- Links whose targets exist, are new and differ can be followed one after another. -/
theorem Marks.exists_foldlM_follow {size : Nat} {links : List Link} {marked : Array Bool}
    (h : Marks size links marked) {more : List Link} (hlt : ∀ link ∈ more, link.target < size)
    (hnodup : ((links ++ more).map Link.target).Nodup) :
    ∃ marked', more.foldlM ArtDocument.follow marked = .ok marked' := by
  induction more generalizing links marked with
  | nil => exact ⟨marked, rfl⟩
  | cons link more ih =>
    have hnew : link.target ∉ links.map Link.target := by
      rw [List.map_append, List.nodup_append] at hnodup
      exact fun hmem => hnodup.2.2 _ hmem _ (by simp) rfl
    -- the target is not marked, since it differs from the targets of all links before
    have hfollow : ArtDocument.follow marked link =
        .ok (marked.setIfInBounds link.target true) := by
      refine follow_eq_ok_iff.mpr ⟨?_, rfl⟩
      rw [h.mark _ (hlt link (by simp))]
      simpa using hnew
    obtain ⟨marked', hrest⟩ := ih (h.follow hfollow)
      (fun other hother => hlt other (by simp [hother])) (by simpa using hnodup)
    exact ⟨marked', by rw [List.foldlM_cons, hfollow]; exact hrest⟩

/-- Following the links of several nodes keeps the marks right, and none of the nodes is its own
child or sibling. -/
theorem Marks.foldlM_followNode {size : Nat} {links : List Link} {marked marked' : Array Bool}
    (h : Marks size links marked) {nodes : List (ArtNode × Nat)}
    (hf : nodes.foldlM followNode marked = .ok marked') :
    Marks size (links ++ linksOfNodes nodes) marked' ∧
      ∀ node ∈ nodes, node.1.isSelfReferring node.2 = false := by
  -- the links of a node are followed as a whole, so the invariant goes from node to node
  induction nodes generalizing links marked with
  | nil =>
    cases hf
    exact ⟨by simpa [linksOfNodes] using h, by simp⟩
  | cons node nodes ih =>
    rw [List.foldlM_cons] at hf
    cases hself : node.1.isSelfReferring node.2 with
    | true => simp [followNode, hself, bind, Except.bind] at hf
    | false =>
      cases hfirst : (node.1.links node.2).foldlM ArtDocument.follow marked with
      | error fault => simp [followNode, hself, hfirst, bind, Except.bind] at hf
      | ok marked₁ =>
        simp only [followNode, hself, hfirst, Bool.false_eq_true, if_false, bind,
          Except.bind] at hf
        obtain ⟨hmarks, hrest⟩ := ih (h.foldlM_follow hfirst) hf
        exact ⟨by simpa [linksOfNodes] using hmarks, by simpa [hself] using hrest⟩

/-- The links of nodes that are not their own child or sibling can be followed if their targets
exist, are new and differ. -/
theorem Marks.exists_foldlM_followNode {size : Nat} {links : List Link} {marked : Array Bool}
    (h : Marks size links marked) {nodes : List (ArtNode × Nat)}
    (hself : ∀ node ∈ nodes, node.1.isSelfReferring node.2 = false)
    (hlt : ∀ link ∈ linksOfNodes nodes, link.target < size)
    (hnodup : ((links ++ linksOfNodes nodes).map Link.target).Nodup) :
    ∃ marked', nodes.foldlM followNode marked = .ok marked' := by
  induction nodes generalizing links marked with
  | nil => exact ⟨marked, rfl⟩
  | cons node nodes ih =>
    have hsplit : linksOfNodes (node :: nodes) = node.1.links node.2 ++ linksOfNodes nodes := rfl
    -- all links in one row: those before, those of this node, those of the nodes that follow
    rw [hsplit] at hlt hnodup
    rw [← List.append_assoc] at hnodup
    obtain ⟨marked₁, hfirst⟩ := h.exists_foldlM_follow
      (fun link hlink => hlt link (List.mem_append_left _ hlink))
      (by rw [List.map_append] at hnodup; exact (List.nodup_append.mp hnodup).1)
    obtain ⟨marked', hrest⟩ := ih (h.foldlM_follow hfirst)
      (fun other hother => hself other (List.mem_cons_of_mem _ hother))
      (fun link hlink => hlt link (List.mem_append_right _ hlink)) hnodup
    refine ⟨marked', ?_⟩
    rw [List.foldlM_cons, followNode, hself node (by simp), if_neg (by simp), hfirst]
    exact hrest

/-- The check of the links accepts exactly the well-linked documents: it knows of nothing but
missing targets, shared targets, and nodes that are their own child or sibling. -/
theorem checkLinks_accepts_iff (doc : ArtDocument) :
    (∃ marked, doc.checkLinks = .ok marked) ↔ doc.WellLinked := by
  have hstart := marks_nil doc.nodes.size
  unfold checkLinks
  -- the links of the roots come first, then those of the nodes
  constructor
  · rintro ⟨marked, hcheck⟩
    cases hroots : doc.rootLinks.foldlM follow (Array.replicate doc.nodes.size false) with
    | error fault => simp [hroots, bind, Except.bind] at hcheck
    | ok marked₁ =>
      rw [hroots] at hcheck
      obtain ⟨hmarks, hself⟩ := (hstart.foldlM_follow hroots).foldlM_followNode hcheck
      rw [List.nil_append] at hmarks
      exact ⟨hmarks.target_lt, hmarks.nodup, hself⟩
  · rintro ⟨hlt, hnodup, hself⟩
    have hroots : (doc.rootLinks.map Link.target).Nodup := by
      rw [links, List.map_append] at hnodup
      exact (List.nodup_append.mp hnodup).1
    obtain ⟨marked₁, hfirst⟩ := hstart.exists_foldlM_follow
      (fun link hlink => hlt link (List.mem_append_left _ hlink)) hroots
    obtain ⟨marked, hrest⟩ := (hstart.foldlM_follow hfirst).exists_foldlM_followNode hself
      (fun link hlink => hlt link (List.mem_append_right _ hlink)) hnodup
    exact ⟨marked, by rw [hfirst]; exact hrest⟩

/-- A document that passes the whole check is well-linked. -/
theorem Valid.wellLinked [CurveLibrary] {doc : ArtDocument} (h : doc.Valid) : doc.WellLinked := by
  refine (checkLinks_accepts_iff doc).mp ?_
  unfold Valid check at h
  cases hlinks : doc.checkLinks with
  | error fault => simp [hlinks, bind, Except.bind] at h
  | ok marked => exact ⟨marked, rfl⟩

end ArtDocument

end ArtCanvas
