import ArtCanvas.Proofs.Pattern.Names
import ArtCanvas.Proofs.Scan.Registering

/-!
# Induction over the uses of patterns

A scan changes its table of patterns in three ways only: a pattern is used for the first time, a
pattern of the table is used again, or the features of a pattern are set. What these three keep, a
scan keeps.

* `Artwork.KeptByUses`: a statement about the table and the first uses that is kept.
* `Artwork.KeptByUses.scan`: such a statement holds after a scan if it holds at the start.
* `Artwork.introduced_scan`: the names of the patterns, and which of them are symbols.
-/

namespace ArtCanvas

namespace Artwork

variable (art : Artwork)

/-- The node is a symbol that places the pattern. -/
def Places (node handle : Nat) : Prop :=
  art.kind node = .symbol ∧ art.symbolPattern node = some handle

/-- Whether a node places a pattern is seen at the node. -/
instance (node handle : Nat) : Decidable (art.Places node handle) :=
  inferInstanceAs (Decidable (_ ∧ _))

/-- The node uses the pattern in the given way. -/
def UsesAs : PatternRole → Nat → Nat → Prop
  | .symbol, node, handle => art.Places node handle
  | .paint, node, handle => ∃ target, art.paint node target = .pattern handle

/-- The statement is kept by all that a scan does to the patterns. A node that uses a pattern in
both ways uses it as a symbol first. -/
structure KeptByUses (I : PatternTable → List PatternUse → Prop) : Prop where
  first : ∀ {t : PatternTable} {uses : List PatternUse} {role : PatternRole} {node handle : Nat},
    handle ∉ t.handles → art.UsesAs role node handle →
    (role = .paint → ¬ art.Places node handle) → I t uses →
    I (t.add handle role (art.patternSource handle)).2 (uses ++ [PatternUse.mk handle node])
  again : ∀ {t : PatternTable} {uses : List PatternUse} {role : PatternRole} {node handle : Nat},
    handle ∈ t.handles → art.UsesAs role node handle → I t uses →
    I (t.add handle role (art.patternSource handle)).2 uses
  features : ∀ {t : PatternTable} {uses : List PatternUse} (handle : Nat) (features : Features),
    I t uses → I (t.setFeatures handle features) uses

end Artwork

/-- From one state of a scan to a later one, no pattern is lost and the statement is kept. -/
structure ScanState.Keeps (I : PatternTable → List PatternUse → Prop) (s s' : ScanState) :
    Prop where
  handles : s.patterns.handles ⊆ s'.patterns.handles
  kept : I s.patterns s.firstUses → I s'.patterns s'.firstUses

namespace ScanState.Keeps

variable {I : PatternTable → List PatternUse → Prop} {s s' s'' : ScanState}

/-- Nothing happens to the patterns. -/
theorem of_eq (hpatterns : s'.patterns = s.patterns) (huses : s'.firstUses = s.firstUses) :
    Keeps I s s' := by
  constructor
  · rw [hpatterns]
    exact List.Subset.refl _
  · rw [hpatterns, huses]
    exact id

theorem refl : Keeps I s s := of_eq rfl rfl

theorem trans (h : Keeps I s s') (h' : Keeps I s' s'') : Keeps I s s'' :=
  ⟨List.Subset.trans h.handles h'.handles, fun hI => h'.kept (h.kept hI)⟩

end ScanState.Keeps

namespace Artwork

variable {art : Artwork} {I : PatternTable → List PatternUse → Prop}

section Step

variable (hI : art.KeptByUses I) {deeper : Option Nat → ScanState → ScanState}
  (hdeeper : ∀ first s, ScanState.Keeps I s (deeper first s))

include hI hdeeper

/-- After the use of a pattern the pattern is in the table. -/
theorem keeps_usePattern {node handle : Nat} (role : PatternRole) (s : ScanState)
    (huses : art.UsesAs role node handle)
    (hplaced : role = .paint → art.Places node handle → handle ∈ s.patterns.handles) :
    ScanState.Keeps I s (art.usePattern deeper node handle role s) ∧
      handle ∈ (art.usePattern deeper node handle role s).patterns.handles := by
  by_cases hmem : handle ∈ s.patterns.handles
  · have hhandles := (PatternTable.add_of_mem role (art.patternSource handle) hmem).2.1
    rw [usePattern_of_mem role hmem]
    exact ⟨⟨hhandles ▸ List.Subset.refl _, hI.again hmem huses⟩, hhandles ▸ hmem⟩
  · -- the pattern is put into the table, its art is scanned, and its features are set
    have hinner := hdeeper (art.patternContent handle) (art.enterPattern { handle, node } role s)
    have hsubset := hinner.handles
    rw [handles_enterPattern hmem] at hsubset
    rw [usePattern_of_not_mem role hmem]
    refine ⟨⟨?_, fun hs => ?_⟩, ?_⟩
    · rw [handles_leavePattern]
      exact List.Subset.trans (List.subset_append_left _ _) hsubset
    · exact hI.features handle _ (hinner.kept (hI.first hmem huses
        (fun hrole hplaces => hmem (hplaced hrole hplaces)) hs))
    · rw [handles_leavePattern]
      exact hsubset (by simp)

/-- After this step the pattern that the node places is in the table. -/
theorem keeps_scanKind (node : Nat) (s : ScanState) :
    ScanState.Keeps I s (art.scanKind deeper node s) ∧
      ∀ handle, art.Places node handle →
        handle ∈ (art.scanKind deeper node s).patterns.handles := by
  unfold scanKind Places
  cases hkind : art.kind node with
  | plain => exact ⟨.refl, fun handle h => nomatch h.1⟩
  | symbol =>
    cases hsymbol : art.symbolPattern node with
    | none => exact ⟨.refl, fun handle h => nomatch h.2⟩
    | some handle =>
      obtain ⟨hkeeps, hmem⟩ :=
        keeps_usePattern hI hdeeper .symbol s ⟨hkind, hsymbol⟩ (fun h => nomatch h)
      refine ⟨hkeeps, ?_⟩
      rintro handle' ⟨-, hsome⟩
      rwa [← Option.some.inj hsome]
  | pluginGroup =>
    refine ⟨?_, fun handle h => nomatch h.1⟩
    cases art.pluginResult node with
    | none => exact .refl
    | some result => exact hdeeper _ s

theorem keeps_scanPaint {node : Nat} (target : PaintTarget) {s : ScanState}
    (hplaced : ∀ handle, art.Places node handle → handle ∈ s.patterns.handles) :
    ScanState.Keeps I s (art.scanPaint deeper node target s) := by
  unfold scanPaint
  cases hpaint : art.paint node target with
  | none => exact .refl
  | solid => exact .refl
  | gradient => exact .of_eq rfl rfl
  | pattern handle =>
    exact (keeps_usePattern hI hdeeper .paint s ⟨target, hpaint⟩
      fun _ => hplaced handle).1.trans (.of_eq rfl rfl)

theorem keeps_scanNode (node : Nat) (s : ScanState) :
    ScanState.Keeps I s (art.scanNode deeper node s) := by
  rw [scanNode]
  -- one step after the other; what the node places is in the table from the second one on
  have hVisit : ScanState.Keeps I s (s.visit node (art.bounds node)) := .of_eq rfl rfl
  obtain ⟨hKind, hplaced⟩ := keeps_scanKind hI hdeeper node (s.visit node (art.bounds node))
  generalize art.scanKind deeper node (s.visit node (art.bounds node)) = s₁ at hKind hplaced
  have hOpacity : ScanState.Keeps I s₁ (art.scanOpacity node s₁) := by
    unfold scanOpacity
    split
    · exact .of_eq rfl rfl
    · exact .refl
  generalize art.scanOpacity node s₁ = s₂ at hOpacity
  have hFill := keeps_scanPaint hI hdeeper .fill
    fun handle hplaces => hOpacity.handles (hplaced handle hplaces)
  generalize art.scanPaint deeper node .fill s₂ = s₃ at hFill
  have hStroke := keeps_scanPaint hI hdeeper .stroke
    fun handle hplaces => hFill.handles (hOpacity.handles (hplaced handle hplaces))
  exact ((((hVisit.trans hKind).trans hOpacity).trans hFill).trans hStroke).trans (hdeeper _ _)

end Step

variable (hI : art.KeptByUses I)

include hI

theorem keeps_scanSiblings (maxDepth levels : Nat) (first : Option Nat) (s : ScanState) :
    ScanState.Keeps I s (art.scanSiblings maxDepth levels first s) := by
  induction levels generalizing first s with
  | zero => cases first <;> exact .of_eq rfl rfl
  | succ levels ih =>
    cases first with
    | none => exact .refl
    | some node =>
      refine List.foldlRecOn (motive := fun s' => ScanState.Keeps I s s') _ _ .refl
        fun s' h sibling _ => ?_
      cases art.isHidden sibling with
      | true => exact h
      | false => exact h.trans (keeps_scanNode hI ih sibling s')

theorem keeps_scanLayers (maxDepth : Nat) (layers : List Nat) (s : ScanState) :
    ScanState.Keeps I s (art.scanLayers maxDepth layers s).2 := by
  induction layers generalizing s with
  | nil => exact .refl
  | cons layer layers ih =>
    have hstart : ScanState.Keeps I s { s with measure := {} } := .of_eq rfl rfl
    have hlayer : ScanState.Keeps I s (art.scanLayer maxDepth layer s).2 :=
      hstart.trans (keeps_scanSiblings hI _ _ _ _)
    exact hlayer.trans (ih _)

/-- What holds of the empty table, and is kept by uses, holds after a scan. -/
theorem KeptByUses.scan (start : I {} []) (maxDepth : Nat) :
    I (art.scan maxDepth).2.patterns (art.scan maxDepth).2.firstUses :=
  (keeps_scanLayers hI maxDepth art.visibleLayers {}).kept start

end Artwork

namespace PatternTable

/-- The registered patterns, each with the mark of a symbol. -/
def roles (t : PatternTable) : List (Nat × Bool) := t.patterns.map fun p => (p.handle, p.isSymbol)

end PatternTable

/-- How the patterns of a table came into it: with names of their own, without names for their
functions, and each one as a symbol exactly if its first use places it. -/
structure Artwork.Introduced (art : Artwork) (t : PatternTable) (uses : List PatternUse) :
    Prop where
  names : t.names.Nodup
  unnamed : ∀ p ∈ t.patterns, p.symbolFunction = none
  roles : List.Forall₂ (fun entry use => entry.1 = use.handle ∧
    (entry.2 = true ↔ art.Places use.node use.handle)) t.roles uses

namespace Artwork

variable {art : Artwork}

/-- A pattern that was introduced is a symbol exactly if its first use places it. -/
theorem Introduced.exists_use {t : PatternTable} {uses : List PatternUse}
    (h : art.Introduced t uses) {p : Pattern} (hp : p ∈ t.patterns) :
    ∃ use ∈ uses, use.handle = p.handle ∧ (p.isSymbol = true ↔ art.Places use.node p.handle) := by
  obtain ⟨use, huse, hhandle, hrole⟩ :=
    exists_mem_of_forall₂ h.roles.flip (List.mem_map.mpr ⟨p, hp, rfl⟩)
  dsimp only at hhandle hrole
  exact ⟨use, huse, hhandle.symm, by rwa [hhandle]⟩

/-- Uses of patterns keep how these were introduced. -/
theorem keptByUses_introduced (art : Artwork) : art.KeptByUses art.Introduced where
  first {t uses role node handle} hmem huses hpaint h :=
    { names := PatternTable.nodup_names_add h.names handle role _
      unnamed := PatternTable.forall_add role _ h.unnamed (fun _ _ hp => hp) rfl
      roles := by
        rw [PatternTable.roles, PatternTable.patterns_add_of_not_mem role _ hmem, List.map_append]
        refine List.rel_append h.roles (.cons ⟨rfl, ?_⟩ .nil)
        cases role with
        | symbol => exact ⟨fun _ => huses, fun _ => rfl⟩
        | paint =>
          -- a node that also places the pattern would have registered it as a symbol
          exact ⟨fun hfalse => (nomatch hfalse), fun hplaces => absurd hplaces (hpaint rfl)⟩ }
  again {t uses role node handle} hmem _ h :=
    { names := PatternTable.nodup_names_add h.names handle role _
      unnamed := PatternTable.forall_add role _ h.unnamed (fun _ _ hp => hp) rfl
      roles := by
        rw [PatternTable.roles, PatternTable.map_add_of_mem role _ (fun _ _ => rfl) hmem]
        exact h.roles }
  features {t uses} handle features h :=
    { names := by
        rw [PatternTable.names, PatternTable.map_setFeatures fun _ _ => rfl]
        exact h.names
      unnamed := PatternTable.forall_setFeatures h.unnamed (fun _ _ hp => hp) handle features
      roles := by
        rw [PatternTable.roles, PatternTable.map_setFeatures fun _ _ => rfl]
        exact h.roles }

/-- How a scan introduces patterns. -/
theorem introduced_scan (art : Artwork) (maxDepth : Nat) :
    art.Introduced (art.scan maxDepth).2.patterns (art.scan maxDepth).2.firstUses :=
  art.keptByUses_introduced.scan ⟨List.nodup_nil, by simp, .nil⟩ maxDepth

end Artwork

end ArtCanvas
