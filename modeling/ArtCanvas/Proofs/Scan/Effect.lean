import ArtCanvas.Proofs.Scan.Measure
import ArtCanvas.Proofs.Scan.Registering

/-!
# What a scan does to its state

The measure of a scan is settled in `Proofs.Scan.Measure`. This module is about the rest of the
state: which nodes are visited, which patterns are registered by whom, and what is left out.

* `Registration`: the first use of a pattern, with the number of levels below the node that uses it.
* `Artwork.Registered`: where a registration comes from: a tour, or the art of a pattern that was
  registered itself.
* `Effect`: what a part of a scan does, in terms of a tour and of the registrations that it makes.
  Effects compose (`Effect.trans`), so each step of a scan has one lemma about its effect.
* `Artwork.effect_scan`: the effect of a scan of all visible layers.
-/

namespace ArtCanvas

/-- The first use of a pattern by a scan. -/
structure Registration extends PatternUse where
  /-- The levels that are left below the node. -/
  levels : Nat

namespace Artwork

variable (art : Artwork)

/-- The node uses the pattern, as a symbol or as a paint. -/
def Uses (node handle : Nat) : Prop :=
  (art.kind node = .symbol ∧ art.symbolPattern node = some handle) ∨
    ∃ target, art.paint node target = .pattern handle

/-- The tour of the art of a registered pattern. -/
def contentTour (r : Registration) : List (Nat × Nat) :=
  art.tourAt r.levels (art.patternContent r.handle)

/-- What is left out of the art of a registered pattern. -/
def contentSkipped (r : Registration) : List Nat :=
  art.skipped r.levels (art.patternContent r.handle)

/-- A registration among `regs` comes from a node among `near`, or from a node in the art of a
pattern whose registration does. -/
inductive Registered (near : List (Nat × Nat)) (regs : List Registration) : Registration → Prop
  | near {r : Registration} : r ∈ regs → (r.node, r.levels) ∈ near → art.Uses r.node r.handle →
      Registered near regs r
  | content {outer r : Registration} : Registered near regs outer → r ∈ regs →
      (r.node, r.levels) ∈ art.contentTour outer → art.Uses r.node r.handle →
      Registered near regs r

/-- All patterns that nodes of a tour use are among `handles`. -/
def Covers (around : List (Nat × Nat)) (handles : List Nat) : Prop :=
  ∀ stop ∈ around, ∀ handle, art.Uses stop.1 handle → handle ∈ handles

/-- The registrations that nodes among `near` make, where the patterns in `known` are registered
already. Each one is followed by those that the art of its pattern makes, and when these are made,
all that the art uses is registered. -/
inductive Unfolds : List (Nat × Nat) → List Nat → List Registration → Prop
  | nil {near : List (Nat × Nat)} {known : List Nat} : Unfolds near known []
  | cons {near : List (Nat × Nat)} {known : List Nat} {r : Registration}
      {inner rest : List Registration} : (r.node, r.levels) ∈ near →
      Unfolds (art.contentTour r) (known ++ [r.handle]) inner →
      art.Covers (art.contentTour r) (known ++ r.handle :: inner.map (·.handle)) →
      Unfolds near (known ++ r.handle :: inner.map (·.handle)) rest →
      Unfolds near known (r :: inner ++ rest)

/-- The pattern has the art and the box that the host shows for it. -/
def Describes (p : Pattern) : Prop :=
  p.content = (art.patternSource p.handle).content ∧
    p.bounds = (art.patternSource p.handle).bounds

variable {art}

theorem Registered.mono {near near' : List (Nat × Nat)} {regs regs' : List Registration}
    {r : Registration} (h : art.Registered near regs r) (hnear : near ⊆ near')
    (hregs : regs ⊆ regs') : art.Registered near' regs' r := by
  induction h with
  | near hmem hstop huses => exact .near (hregs hmem) (hnear hstop) huses
  | content _ hmem hstop huses ih => exact .content ih (hregs hmem) hstop huses

/-- What is registered from the art of a registered pattern is registered from where that pattern
is. -/
theorem Registered.of_content {near : List (Nat × Nat)} {regs regs' : List Registration}
    {outer r : Registration} (h : art.Registered (art.contentTour outer) regs r)
    (houter : art.Registered near regs' outer) (hregs : regs ⊆ regs') :
    art.Registered near regs' r := by
  induction h with
  | near hmem hstop huses => exact .content houter (hregs hmem) hstop huses
  | content _ hmem hstop huses ih => exact .content ih (hregs hmem) hstop huses

/-- More nodes make as many registrations. -/
theorem Unfolds.mono {near near' : List (Nat × Nat)} {known : List Nat}
    {regs : List Registration} (h : art.Unfolds near known regs) (hnear : near ⊆ near') :
    art.Unfolds near' known regs := by
  induction h with
  | nil => exact .nil
  | cons hstop hinner hcovers _ _ ih => exact .cons (hnear hstop) hinner hcovers (ih hnear)

/-- Registrations that are made one after the other. -/
theorem Unfolds.append {near : List (Nat × Nat)} {known : List Nat}
    {regs regs' : List Registration} (h : art.Unfolds near known regs)
    (h' : art.Unfolds near (known ++ regs.map (·.handle)) regs') :
    art.Unfolds near known (regs ++ regs') := by
  induction h with
  | nil => simpa using h'
  | cons hstop hinner hcovers _ _ ih =>
    rw [List.append_assoc]
    refine .cons hstop hinner hcovers (ih ?_)
    simpa using h'

end Artwork

/-- What a part of a scan does to the state: it goes around `around` and leaves out what starts at
`out`, and it makes the registrations `regs`, which come from `near`. It has `levels` levels. -/
structure Effect (art : Artwork) (maxDepth levels : Nat) (near around : List (Nat × Nat))
    (out : List Nat) (regs : List Registration) (s s' : ScanState) : Prop where
  /-- The registrations are the new first uses. -/
  firstUses : s'.firstUses = s.firstUses ++ regs.map Registration.toPatternUse
  /-- The registered patterns get into the table in this order. -/
  handles : s'.patterns.handles = s.patterns.handles ++ regs.map (·.handle)
  /-- Only patterns that were not in the table are registered. -/
  fresh : ∀ r ∈ regs, r.handle ∉ s.patterns.handles
  /-- No pattern is registered twice. -/
  distinct : (regs.map (·.handle)).Nodup
  /-- A pattern is registered by a node that uses it and is visited. -/
  registered : ∀ r ∈ regs, art.Registered near regs r
  /-- The registrations are listed as the art unfolds. -/
  unfolds : art.Unfolds near s.patterns.handles regs
  /-- What the tour uses is in the table. -/
  covers : art.Covers around s'.patterns.handles
  /-- The features of a registered pattern are those of its art. -/
  features : ∀ r ∈ regs, s'.patterns.featuresOf r.handle =
    some (art.needsOf ((art.contentTour r).map Prod.fst))
  /-- The features of the other patterns stay. -/
  frame : ∀ handle ∈ s.patterns.handles,
    s'.patterns.featuresOf handle = s.patterns.featuresOf handle
  /-- The patterns that are registered are described as the host describes them. -/
  described : (∀ p ∈ s.patterns.patterns, art.Describes p) →
    ∀ p ∈ s'.patterns.patterns, art.Describes p
  /-- The tour and the tours of the art of the registered patterns are visited. -/
  visited : s'.visited.Perm
    ((around ++ regs.flatMap art.contentTour).map Prod.fst ++ s.visited)
  /-- There is a warning for everything that is left out. -/
  warnings : s'.warnings = s.warnings ++
    List.replicate (out ++ regs.flatMap art.contentSkipped).length (.tooDeep maxDepth)
  /-- Something is left out only after a node was visited on every level. -/
  deep : s'.warnings = s.warnings ∨ s.visited.length + levels ≤ s'.visited.length

namespace Effect

variable {art : Artwork} {maxDepth levels : Nat} {near near' around around' : List (Nat × Nat)}
  {out out' : List Nat} {regs regs' : List Registration} {s s' s'' : ScanState}

/-- Nothing is visited, registered or left out. -/
theorem of_eq (hfirstUses : s'.firstUses = s.firstUses) (hvisited : s'.visited = s.visited)
    (hwarnings : s'.warnings = s.warnings) (hhandles : s'.patterns.handles = s.patterns.handles)
    (hfeatures : ∀ handle, s'.patterns.featuresOf handle = s.patterns.featuresOf handle)
    (hdescribed : (∀ p ∈ s.patterns.patterns, art.Describes p) →
      ∀ p ∈ s'.patterns.patterns, art.Describes p) :
    Effect art maxDepth levels near [] [] [] s s' where
  firstUses := by simp [hfirstUses]
  handles := by simp [hhandles]
  fresh := by simp
  distinct := List.nodup_nil
  registered := by simp
  unfolds := .nil
  covers := by simp [Artwork.Covers]
  features := by simp
  frame handle _ := hfeatures handle
  described := hdescribed
  visited := by simp [hvisited]
  warnings := by simp [hwarnings]
  deep := Or.inl hwarnings

/-- Nothing happens. -/
theorem refl : Effect art maxDepth levels near [] [] [] s s :=
  of_eq rfl rfl rfl rfl (fun _ => rfl) id

/-- Where no level is left there is a warning, and nothing else. -/
theorem warn (node : Nat) :
    Effect art maxDepth 0 near [] [node] [] s (s.warn (.tooDeep maxDepth)) := by
  have h : Effect art maxDepth 0 near [] [] [] s s := refl
  exact { h with
    warnings := rfl
    deep := Or.inr le_rfl }

theorem mono (h : Effect art maxDepth levels near around out regs s s') (hnear : near ⊆ near') :
    Effect art maxDepth levels near' around out regs s s' :=
  { h with
    registered := fun r hr => (h.registered r hr).mono hnear (List.Subset.refl _)
    unfolds := h.unfolds.mono hnear }

/-- The measure has no part in an effect. -/
theorem withMeasure (h : Effect art maxDepth levels near around out regs s s') (m m' : Measure) :
    Effect art maxDepth levels near around out regs { s with measure := m }
      { s' with measure := m' } :=
  { h with }

/-- Nothing but the measure changes. -/
theorem measureOnly (m : Measure) :
    Effect art maxDepth levels near [] [] [] s { s with measure := m } :=
  refl.withMeasure s.measure m

theorem length_visited (h : Effect art maxDepth levels near around out regs s s') :
    s.visited.length ≤ s'.visited.length := by
  rw [h.visited.length_eq, List.length_append]
  omega

/-- No pattern gets lost. -/
theorem handles_subset (h : Effect art maxDepth levels near around out regs s s') :
    s.patterns.handles ⊆ s'.patterns.handles := by
  rw [h.handles]
  exact List.subset_append_left _ _

/-- A pattern that was registered is in the table. -/
theorem mem_handles (h : Effect art maxDepth levels near around out regs s s') {r : Registration}
    (hr : r ∈ regs) : r.handle ∈ s'.patterns.handles := by
  rw [h.handles]
  exact List.mem_append_right _ (List.mem_map.mpr ⟨r, hr, rfl⟩)

/-- Where there are no warnings nothing is left out: there are as many as pieces of art that are. -/
theorem skipped_eq_nil (h : Effect art maxDepth levels near around out regs s s')
    (hnone : s'.warnings = []) : out = [] ∧ ∀ r ∈ regs, art.contentSkipped r = [] := by
  have hskipped := h.warnings
  rw [hnone, eq_comm, List.append_eq_nil_iff, List.replicate_eq_nil_iff,
    List.length_eq_zero_iff, List.append_eq_nil_iff, List.flatMap_eq_nil_iff] at hskipped
  exact hskipped.2

/-- One part after the other. -/
theorem trans (h : Effect art maxDepth levels near around out regs s s')
    (h' : Effect art maxDepth levels near around' out' regs' s' s'') :
    Effect art maxDepth levels near (around ++ around') (out ++ out') (regs ++ regs') s s'' where
  firstUses := by rw [h'.firstUses, h.firstUses, List.map_append, List.append_assoc]
  handles := by rw [h'.handles, h.handles, List.map_append, List.append_assoc]
  fresh := by
    intro r hr
    rcases List.mem_append.mp hr with hr | hr
    · exact h.fresh r hr
    · exact fun hmem => h'.fresh r hr (h.handles_subset hmem)
  distinct := by
    rw [List.map_append]
    refine h.distinct.append h'.distinct fun handle hmem hmem' => ?_
    obtain ⟨r, hr, rfl⟩ := List.mem_map.mp hmem
    obtain ⟨r', hr', heq⟩ := List.mem_map.mp hmem'
    exact h'.fresh r' hr' (heq ▸ h.mem_handles hr)
  registered := by
    intro r hr
    rcases List.mem_append.mp hr with hr | hr
    · exact (h.registered r hr).mono (List.Subset.refl _) (List.subset_append_left _ _)
    · exact (h'.registered r hr).mono (List.Subset.refl _) (List.subset_append_right _ _)
  unfolds := by
    refine h.unfolds.append ?_
    rw [← h.handles]
    exact h'.unfolds
  covers := by
    intro stop hstop handle huses
    rcases List.mem_append.mp hstop with hstop | hstop
    · -- what the first part left in the table is still there
      exact h'.handles_subset (h.covers stop hstop handle huses)
    · exact h'.covers stop hstop handle huses
  features := by
    intro r hr
    rcases List.mem_append.mp hr with hr | hr
    · -- what the first part registered is in the table, so the second part leaves it alone
      rw [h'.frame r.handle (h.mem_handles hr), h.features r hr]
    · exact h'.features r hr
  frame := by
    intro handle hmem
    rw [h'.frame handle (h.handles_subset hmem), h.frame handle hmem]
  described hs := h'.described (h.described hs)
  visited := by
    -- both sides are appended in a different order, so occurrences are counted
    refine List.perm_iff_count.mpr fun node => ?_
    have hcount := h.visited.count_eq node
    have hcount' := h'.visited.count_eq node
    simp only [List.map_append, List.flatMap_append, List.count_append] at hcount hcount' ⊢
    omega
  warnings := by
    rw [h'.warnings, h.warnings, List.append_assoc, ← List.replicate_add]
    congr 2
    simp only [List.length_append, List.flatMap_append]
    omega
  deep := by
    have hlength := h.length_visited
    have hlength' := h'.length_visited
    rcases h.deep with heq | hdeep
    · rcases h'.deep with heq' | hdeep'
      · exact Or.inl (heq'.trans heq)
      · exact Or.inr (by omega)
    · exact Or.inr (by omega)

/-- A node is visited before what follows. One level more is used up. -/
theorem visit {node : Nat} {box : Box Float}
    (h : Effect art maxDepth levels near around out regs (s.visit node box) s')
    (huses : ∀ handle, art.Uses node handle → handle ∈ s'.patterns.handles) :
    Effect art maxDepth (levels + 1) near ((node, levels) :: around) out regs s s' :=
  { h with
    covers := by
      intro stop hstop
      rcases List.mem_cons.mp hstop with rfl | hstop
      · exact huses
      · exact h.covers stop hstop
    visited := h.visited.trans List.perm_middle
    deep := by
      rcases h.deep with heq | hdeep
      · exact Or.inl heq
      · refine Or.inr ?_
        have hlength : (s.visit node box).visited.length = s.visited.length + 1 := rfl
        omega }

/-- In a scan from the start every pattern of the table was registered, and has its art and the
features of it. -/
theorem exists_registration (h : Effect art maxDepth levels near around out regs {} s) {p : Pattern}
    (hp : p ∈ s.patterns.patterns) :
    ∃ r ∈ regs, r.handle = p.handle ∧ p.content = art.patternContent p.handle ∧
      p.features = art.needsOf ((art.contentTour r).map Prod.fst) := by
  -- the table was empty, so all that is in it was registered
  have hhandles : s.patterns.handles = regs.map (·.handle) := h.handles
  have hmem : p.handle ∈ s.patterns.handles := List.mem_map.mpr ⟨p, hp, rfl⟩
  rw [hhandles] at hmem
  obtain ⟨r, hr, hhandle⟩ := List.mem_map.mp hmem
  have hfeatures := h.features r hr
  rw [hhandle, PatternTable.featuresOf_of_mem (hhandles ▸ h.distinct) hp] at hfeatures
  have hdescribed : art.Describes p := h.described (fun q hq => nomatch hq) p hp
  exact ⟨r, hr, hhandle, hdescribed.1, Option.some.inj hfeatures⟩

end Effect

namespace Artwork

variable {art : Artwork} {maxDepth : Nat}

/-- What starts here is scanned with an effect that goes around its tour. -/
def HasEffect (art : Artwork) (maxDepth levels : Nat)
    (deeper : Option Nat → ScanState → ScanState) : Prop :=
  ∀ first s, ∃ regs, Effect art maxDepth levels (art.tourAt levels first)
    (art.tourAt levels first) (art.skipped levels first) regs s (deeper first s)

section Step

variable {deeper : Option Nat → ScanState → ScanState} {levels : Nat} {near : List (Nat × Nat)}

/-- Registering a use keeps the patterns described as the host describes them. -/
theorem describes_of_add (art : Artwork) (handle : Nat) (role : PatternRole) (t : PatternTable)
    (h : ∀ p ∈ t.patterns, art.Describes p) :
    ∀ p ∈ (t.add handle role (art.patternSource handle)).2.patterns, art.Describes p :=
  PatternTable.forall_add role _ h (fun _ _ hp => hp) ⟨rfl, rfl⟩

/-- The use of a pattern that is in the table changes nothing that an effect is about. -/
theorem effect_usePattern_of_mem {handle : Nat} (node : Nat) (role : PatternRole) (s : ScanState)
    (hmem : handle ∈ s.patterns.handles) :
    Effect art maxDepth levels near [] [] [] s (art.usePattern deeper node handle role s) := by
  obtain ⟨-, hhandles, hfeatures⟩ :=
    PatternTable.add_of_mem role (art.patternSource handle) hmem
  rw [usePattern_of_mem role hmem]
  exact .of_eq rfl rfl rfl hhandles hfeatures (art.describes_of_add handle role s.patterns)

/-- A pattern is registered around the scan of its art. -/
theorem effect_leavePattern {r : Registration} {regs : List Registration} {role : PatternRole}
    {s inner : ScanState}
    (h : Effect art maxDepth r.levels (art.contentTour r) (art.contentTour r)
      (art.contentSkipped r) regs (art.enterPattern r.toPatternUse role s) inner)
    (hfeatures : inner.measure.features = art.needsOf ((art.contentTour r).map Prod.fst))
    (hmem : r.handle ∉ s.patterns.handles) (hstop : (r.node, r.levels) ∈ near)
    (huses : art.Uses r.node r.handle) :
    Effect art maxDepth r.levels near [] [] (r :: regs) s (leavePattern r.handle s inner) := by
  have hentered : (art.enterPattern r.toPatternUse role s).patterns.handles =
      s.patterns.handles ++ [r.handle] := handles_enterPattern hmem
  -- the art does not register the pattern again, even if it uses it
  have hne : ∀ r' ∈ regs, r'.handle ≠ r.handle := fun r' hr' heq =>
    h.fresh r' hr' (by simp [hentered, heq])
  have hr : art.Registered near (r :: regs) r := .near List.mem_cons_self hstop huses
  exact
    { firstUses := by simp [leavePattern, h.firstUses, enterPattern]
      handles := by simp [h.handles, hentered]
      fresh := by
        intro r' hr'
        rcases List.mem_cons.mp hr' with rfl | hr'
        · exact hmem
        · exact fun hmem' => h.fresh r' hr' (by simp [hentered, hmem'])
      distinct := by
        rw [List.map_cons, List.nodup_cons]
        refine ⟨fun hmem' => ?_, h.distinct⟩
        obtain ⟨r', hr', heq⟩ := List.mem_map.mp hmem'
        exact hne r' hr' heq
      registered := by
        intro r' hr'
        rcases List.mem_cons.mp hr' with rfl | hr'
        · exact hr
        · exact (h.registered r' hr').of_content hr (List.subset_cons_self _ _)
      unfolds := by
        have hinside : art.Unfolds (art.contentTour r) (s.patterns.handles ++ [r.handle]) regs :=
          hentered ▸ h.unfolds
        have hcovers : art.Covers (art.contentTour r)
            (s.patterns.handles ++ r.handle :: regs.map (·.handle)) := by
          have hall := h.covers
          rwa [h.handles, hentered, ← List.append_cons] at hall
        simpa using Unfolds.cons hstop hinside hcovers .nil
      covers := by simp [Covers]
      features := by
        intro r' hr'
        rcases List.mem_cons.mp hr' with rfl | hr'
        · -- the features are set last, from the measure of the art alone
          have hself := h.handles_subset (by simp [hentered] : r'.handle ∈ _)
          rw [featuresOf_leavePattern_self hself, hfeatures]
        · rw [featuresOf_leavePattern (hne r' hr'), h.features r' hr']
      frame := by
        intro other hother
        have hother' : other ≠ r.handle := fun heq => hmem (heq ▸ hother)
        have hin : other ∈ (art.enterPattern r.toPatternUse role s).patterns.handles := by
          simp [hentered, hother]
        rw [featuresOf_leavePattern hother', h.frame other hin,
          featuresOf_enterPattern hmem hother']
      described := fun hs => PatternTable.forall_setFeatures
        (h.described (art.describes_of_add r.handle role s.patterns hs)) (fun _ _ hp => hp) _ _
      visited := h.visited
      warnings := h.warnings
      deep := h.deep }

/-- The use of a pattern that is not in the table registers it, and then the patterns that its art
registers. -/
theorem effect_usePattern_of_not_mem (hdeeper : art.HasEffect maxDepth levels deeper)
    (hmeasure : ∀ first s, (deeper first s).measure = s.measure.along art (art.tour levels first))
    {node handle : Nat} (role : PatternRole) (s : ScanState) (hmem : handle ∉ s.patterns.handles)
    (hstop : (node, levels) ∈ near) (huses : art.Uses node handle) :
    ∃ regs, Effect art maxDepth levels near [] [] regs s
        (art.usePattern deeper node handle role s) ∧ handle ∈ regs.map (·.handle) := by
  rw [usePattern_of_not_mem role hmem]
  let r : Registration := { handle, node, levels }
  obtain ⟨regs, h⟩ :=
    hdeeper (art.patternContent handle) (art.enterPattern r.toPatternUse role s)
  have hfeatures : (deeper (art.patternContent handle)
      (art.enterPattern r.toPatternUse role s)).measure.features =
        art.needsOf ((art.contentTour r).map Prod.fst) := by
    rw [hmeasure]
    simp [enterPattern, Measure.along, contentTour, tour, r]
  exact ⟨r :: regs, effect_leavePattern (r := r) h hfeatures hmem hstop huses, List.mem_cons_self⟩

/-- Noting the opacity of a node changes the measure alone. -/
theorem effect_scanOpacity (node : Nat) (s : ScanState) :
    Effect art maxDepth levels near [] [] [] s (art.scanOpacity node s) := by
  unfold scanOpacity
  split
  · exact .measureOnly _
  · exact .refl

variable (hdeeper : art.HasEffect maxDepth levels deeper)
  (hmeasure : ∀ first s, (deeper first s).measure = s.measure.along art (art.tour levels first))

include hdeeper hmeasure

/-- The use of a pattern registers it, unless it was registered before. Then it is in the table. -/
theorem effect_usePattern {node handle : Nat} (role : PatternRole) (s : ScanState)
    (hstop : (node, levels) ∈ near) (huses : art.Uses node handle) :
    ∃ regs, Effect art maxDepth levels near [] [] regs s
        (art.usePattern deeper node handle role s) ∧
      handle ∈ (art.usePattern deeper node handle role s).patterns.handles := by
  by_cases hmem : handle ∈ s.patterns.handles
  · have h : Effect art maxDepth levels near [] [] [] s
      (art.usePattern deeper node handle role s) := effect_usePattern_of_mem node role s hmem
    exact ⟨[], h, h.handles_subset hmem⟩
  · obtain ⟨regs, h, hnew⟩ :=
      effect_usePattern_of_not_mem hdeeper hmeasure role s hmem hstop huses
    exact ⟨regs, h, by rw [h.handles]; exact List.mem_append_right _ hnew⟩

/-- After this step the pattern that the node places is in the table. -/
theorem effect_scanKind {node : Nat} (s : ScanState) (hstop : (node, levels) ∈ near)
    (hnear : art.tourAt levels (art.resultArt node) ⊆ near) :
    ∃ regs, Effect art maxDepth levels near (art.tourAt levels (art.resultArt node))
        (art.skipped levels (art.resultArt node)) regs s (art.scanKind deeper node s) ∧
      ∀ handle, art.kind node = .symbol ∧ art.symbolPattern node = some handle →
        handle ∈ (art.scanKind deeper node s).patterns.handles := by
  unfold scanKind
  unfold resultArt at hnear ⊢
  cases hkind : art.kind node with
  | plain => exact ⟨[], by simpa using Effect.refl, by simp⟩
  | symbol =>
    cases hsymbol : art.symbolPattern node with
    | none => exact ⟨[], by simpa using Effect.refl, by simp⟩
    | some handle =>
      simpa using effect_usePattern hdeeper hmeasure .symbol s hstop (Or.inl ⟨hkind, hsymbol⟩)
  | pluginGroup =>
    cases hresult : art.pluginResult node with
    | none => exact ⟨[], by simpa using Effect.refl, by simp⟩
    | some group =>
      simp only [hkind, hresult, Option.bind_some] at hnear
      obtain ⟨regs, h⟩ := hdeeper (art.firstChild group) s
      exact ⟨regs, h.mono hnear, by simp⟩

/-- After this step the pattern of the paint is in the table. -/
theorem effect_scanPaint {node : Nat} (target : PaintTarget) (s : ScanState)
    (hstop : (node, levels) ∈ near) :
    ∃ regs, Effect art maxDepth levels near [] [] regs s
        (art.scanPaint deeper node target s) ∧
      ∀ handle, art.paint node target = .pattern handle →
        handle ∈ (art.scanPaint deeper node target s).patterns.handles := by
  unfold scanPaint
  cases hpaint : art.paint node target with
  | none => exact ⟨[], .refl, by simp⟩
  | solid => exact ⟨[], .refl, by simp⟩
  | gradient => exact ⟨[], .measureOnly _, by simp⟩
  | pattern handle =>
    obtain ⟨regs, h, hmem⟩ :=
      effect_usePattern hdeeper hmeasure .paint s hstop (Or.inr ⟨target, hpaint⟩)
    refine ⟨regs, h.withMeasure s.measure _, ?_⟩
    rintro other hother
    cases hother
    exact hmem

/-- A node is visited, and what belongs to it is toured. -/
theorem effect_scanNode {node : Nat} (s : ScanState) (hvisible : art.isHidden node = false) :
    ∃ regs, Effect art maxDepth (levels + 1) (art.tourNode levels node) (art.tourNode levels node)
      (art.skipped levels (art.resultArt node) ++ art.skipped levels (art.firstChild node)) regs s
      (art.scanNode deeper node s) := by
  have htour : art.tourNode levels node = (node, levels) ::
      (art.tourAt levels (art.resultArt node) ++ art.tourAt levels (art.firstChild node)) := by
    simp [tourNode, hvisible]
  rw [htour]
  generalize hnear : (node, levels) :: (art.tourAt levels (art.resultArt node) ++
    art.tourAt levels (art.firstChild node)) = near
  have hstop : (node, levels) ∈ near := by simp [← hnear]
  have hresult : art.tourAt levels (art.resultArt node) ⊆ near := by
    intro stop hmem
    simp [← hnear, hmem]
  have hchild : art.tourAt levels (art.firstChild node) ⊆ near := by
    intro stop hmem
    simp [← hnear, hmem]
  rw [scanNode]
  -- one step after the other, each from the state in which the one before leaves off
  obtain ⟨regsKind, hKind, hplaced⟩ :=
    effect_scanKind hdeeper hmeasure (s.visit node (art.bounds node)) hstop hresult
  generalize art.scanKind deeper node (s.visit node (art.bounds node)) = s₁ at hKind hplaced
  have hOpacity : Effect art maxDepth levels near [] [] [] s₁ (art.scanOpacity node s₁) :=
    effect_scanOpacity node s₁
  generalize art.scanOpacity node s₁ = s₂ at hOpacity
  obtain ⟨regsFill, hFill, hfilled⟩ := effect_scanPaint hdeeper hmeasure .fill s₂ hstop
  generalize art.scanPaint deeper node .fill s₂ = s₃ at hFill hfilled
  obtain ⟨regsStroke, hStroke, hstroked⟩ := effect_scanPaint hdeeper hmeasure .stroke s₃ hstop
  generalize art.scanPaint deeper node .stroke s₃ = s₄ at hStroke hstroked
  obtain ⟨regsChild, hChild⟩ := hdeeper (art.firstChild node) s₄
  have h := (((hKind.trans hOpacity).trans hFill).trans hStroke).trans (hChild.mono hchild)
  simp only [List.append_nil] at h
  -- what a step put into the table is there after the steps that follow
  have huses : ∀ handle, art.Uses node handle →
      handle ∈ (deeper (art.firstChild node) s₄).patterns.handles := by
    rintro handle (hplaces | ⟨target, hpaint⟩)
    · exact hChild.handles_subset (hStroke.handles_subset (hFill.handles_subset
        (hOpacity.handles_subset (hplaced handle hplaces))))
    · cases target with
      | fill => exact hChild.handles_subset (hStroke.handles_subset (hfilled handle hpaint))
      | stroke => exact hChild.handles_subset (hstroked handle hpaint)
  subst hnear
  exact ⟨regsKind ++ regsFill ++ regsStroke ++ regsChild, h.visit huses⟩

/-- Siblings are scanned one after the other, and hidden ones are passed over. -/
theorem effect_scanEach (nodes : List Nat) (s : ScanState) :
    ∃ regs, Effect art maxDepth (levels + 1) (nodes.flatMap (art.tourNode levels))
      (nodes.flatMap (art.tourNode levels))
      (nodes.flatMap fun node => if art.isHidden node then [] else
        art.skipped levels (art.resultArt node) ++ art.skipped levels (art.firstChild node)) regs s
      (nodes.foldl (fun s node => if art.isHidden node then s else art.scanNode deeper node s)
        s) := by
  -- the first node is scanned, and the others with the state that it left behind
  induction nodes generalizing s with
  | nil => exact ⟨[], .refl⟩
  | cons node nodes ih =>
    rw [List.foldl_cons, List.flatMap_cons, List.flatMap_cons]
    have hfirst : ∃ regs, Effect art maxDepth (levels + 1) (art.tourNode levels node)
        (art.tourNode levels node)
        (if art.isHidden node then [] else
          art.skipped levels (art.resultArt node) ++ art.skipped levels (art.firstChild node))
        regs s (if art.isHidden node then s else art.scanNode deeper node s) := by
      cases hvisible : art.isHidden node with
      | true => exact ⟨[], by simpa [tourNode, hvisible] using Effect.refl⟩
      | false => simpa using effect_scanNode hdeeper hmeasure s hvisible
    obtain ⟨regs, hhead⟩ := hfirst
    obtain ⟨regs', htail⟩ := ih (if art.isHidden node then s else art.scanNode deeper node s)
    exact ⟨regs ++ regs', (hhead.mono (List.subset_append_left _ _)).trans
      (htail.mono (List.subset_append_right _ _))⟩

end Step

/-- A scan of a list of siblings goes around their tour. -/
theorem hasEffect_scanSiblings (art : Artwork) (maxDepth levels : Nat) :
    art.HasEffect maxDepth levels (art.scanSiblings maxDepth levels) := by
  induction levels with
  | zero =>
    intro first s
    cases first with
    | none => exact ⟨[], by simpa [scanSiblings] using Effect.refl⟩
    | some node => exact ⟨[], .warn node⟩
  | succ levels ih =>
    intro first s
    cases first with
    | none => exact ⟨[], by simpa [scanSiblings] using Effect.refl⟩
    | some node =>
      rw [tourAt_succ, scanSiblings, skipped]
      exact effect_scanEach ih (measure_scanSiblings maxDepth levels) _ s

/-- The tours of layers, one after the other. -/
def layerTours (art : Artwork) (maxDepth : Nat) (layers : List Nat) : List (Nat × Nat) :=
  layers.flatMap fun layer => art.tourAt maxDepth (art.firstArt layer)

theorem effect_scanLayers (maxDepth : Nat) (layers : List Nat) (s : ScanState) :
    ∃ regs, Effect art maxDepth maxDepth (art.layerTours maxDepth layers)
      (art.layerTours maxDepth layers)
      (layers.flatMap fun layer => art.skipped maxDepth (art.firstArt layer)) regs s
      (art.scanLayers maxDepth layers s).2 := by
  induction layers generalizing s with
  | nil => exact ⟨[], .refl⟩
  | cons layer layers ih =>
    -- the measure is started anew for each layer
    obtain ⟨regs, hlayer⟩ := art.hasEffect_scanSiblings maxDepth maxDepth (art.firstArt layer)
      { s with measure := {} }
    have hhead := hlayer.withMeasure s.measure (art.scanLayer maxDepth layer s).2.measure
    obtain ⟨regs', htail⟩ := ih (art.scanLayer maxDepth layer s).2
    exact ⟨regs ++ regs', (hhead.mono (List.subset_append_left _ _)).trans
      (htail.mono (List.subset_append_right _ _))⟩

/-- A scan goes around the visible layers and around the art of the patterns that it registers. -/
theorem effect_scan (art : Artwork) (maxDepth : Nat) :
    ∃ regs, Effect art maxDepth maxDepth (art.layerTours maxDepth art.visibleLayers)
      (art.layerTours maxDepth art.visibleLayers)
      (art.visibleLayers.flatMap fun layer => art.skipped maxDepth (art.firstArt layer)) regs {}
      (art.scan maxDepth).2 :=
  effect_scanLayers maxDepth art.visibleLayers {}

end Artwork

end ArtCanvas
