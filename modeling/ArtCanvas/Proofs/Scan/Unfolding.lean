import ArtCanvas.Proofs.Scan.Records
import Mathlib.Logic.Relation

/-!
# The order in which patterns are first used

A scan looks into the art of a pattern at once when it comes to the first use of the pattern. So the
table of patterns lists them as a search in depth discovers them: each pattern stands before those
that its own art is the first to use.

* `Precedes`: the order of the elements of a list.
* `Artwork.Unfolds.exists_split`: where the registrations stand that the art of a pattern makes.
* `ArtDocument.FirstUsedIn`: the first use of a pattern is in the art of another one.
* `ArtDocument.WellLinked.precedes_of_firstUsedIn`: the other one comes first.
* `ArtDocument.WellLinked.exists_tour_of_inUse`: the art of a pattern uses nothing but patterns that
  come before it, the pattern itself, and those that are first used in its art, in their art, and so
  on.
-/

namespace ArtCanvas

/-! ### Order in a list -/

/-- An element stands before another one in a list. -/
def Precedes {α : Type} (l : List α) (a b : α) : Prop := [a, b].Sublist l

/-- Which of two comes first is found out by searching the list. -/
instance {α : Type} [DecidableEq α] (l : List α) (a b : α) : Decidable (Precedes l a b) :=
  inferInstanceAs (Decidable ([a, b].Sublist l))

namespace Precedes

variable {α β : Type} {l l' : List α} {a b c : α}

theorem mono (h : Precedes l a b) (hsub : l.Sublist l') : Precedes l' a b := h.trans hsub

theorem of_append (ha : a ∈ l) (hb : b ∈ l') : Precedes (l ++ l') a b :=
  (List.singleton_sublist.mpr ha).append (List.singleton_sublist.mpr hb)

theorem map (h : Precedes l a b) (f : α → β) : Precedes (l.map f) (f a) (f b) :=
  List.Sublist.map f h

theorem cons_iff {x : α} : Precedes (x :: l) a b ↔ Precedes l a b ∨ a = x ∧ b ∈ l := by
  unfold Precedes
  rw [List.sublist_cons_iff]
  simp only [List.cons.injEq, ↓existsAndEq, and_true, List.singleton_sublist]

theorem mem_right (h : Precedes l a b) : b ∈ l := h.subset (by simp)

/-- Where nothing is listed twice, an element that stands before another one does not stand behind
it as well. -/
theorem asymm (h : Precedes l a b) (hnodup : l.Nodup) : ¬ Precedes l b a := by
  induction l with
  | nil => cases h
  | cons x l ih =>
    obtain ⟨hx, hnodup⟩ := List.nodup_cons.mp hnodup
    rw [cons_iff] at h ⊢
    rintro (hba | ⟨rfl, ha⟩)
    · rcases h with hab | ⟨rfl, -⟩
      · exact ih hab hnodup hba
      · exact hx hba.mem_right
    · rcases h with hab | ⟨rfl, -⟩
      · exact hx hab.mem_right
      · exact hx ha

theorem trans (h : Precedes l a b) (h' : Precedes l b c) (hnodup : l.Nodup) : Precedes l a c := by
  induction l with
  | nil => cases h
  | cons x l ih =>
    obtain ⟨hx, hnodup⟩ := List.nodup_cons.mp hnodup
    rw [cons_iff] at h h' ⊢
    rcases h' with hbc | ⟨rfl, -⟩
    · rcases h with hab | ⟨rfl, -⟩
      · exact Or.inl (ih hab hbc hnodup)
      · exact Or.inr ⟨rfl, hbc.mem_right⟩
    · rcases h with hab | ⟨rfl, hb⟩
      · exact absurd hab.mem_right hx
      · exact absurd hb hx

/-- Elements that a function tells apart are in the order of their values. -/
theorem map_iff {f : α → β} (hinj : ∀ x ∈ l, ∀ y ∈ l, f x = f y → x = y) (ha : a ∈ l)
    (hb : b ∈ l) : Precedes (l.map f) (f a) (f b) ↔ Precedes l a b := by
  constructor
  · intro h
    obtain ⟨part, hpart, heq⟩ := List.sublist_map_iff.mp h
    -- the part of the list with the two values is that of the two elements
    obtain ⟨x, rest, rfl, hx, hrest⟩ := List.map_eq_cons_iff.mp heq.symm
    obtain ⟨y, rest', rfl, hy, hnil⟩ := List.map_eq_cons_iff.mp hrest
    rw [List.map_eq_nil_iff] at hnil
    subst hnil
    obtain rfl := hinj x (hpart.subset (by simp)) a ha hx
    obtain rfl := hinj y (hpart.subset (by simp)) b hb hy
    exact hpart
  · exact fun h => h.map f

/-- The elements that are kept of a list stay in their order. -/
theorem filter_iff {p : α → Bool} (ha : p a) (hb : p b) :
    Precedes (l.filter p) a b ↔ Precedes l a b := by
  constructor
  · exact fun h => h.mono List.filter_sublist
  · intro h
    have hkept := List.Sublist.filter p h
    rwa [List.filter_cons_of_pos ha, List.filter_cons_of_pos hb, List.filter_nil] at hkept

end Precedes

/-! ### Registrations as the art unfolds -/

namespace Artwork.Unfolds

variable {art : Artwork} {near : List (Nat × Nat)} {known : List Nat} {regs : List Registration}

/-- What holds of the registrations that nodes among `near` make, and goes over from a registration
to those that the art of its pattern makes, holds of all. -/
theorem forall_of_content (h : art.Unfolds near known regs) {motive : Registration → Prop}
    (hnear : ∀ r ∈ regs, (r.node, r.levels) ∈ near → motive r)
    (hcontent : ∀ outer ∈ regs, ∀ r ∈ regs, motive outer →
      (r.node, r.levels) ∈ art.contentTour outer → motive r) : ∀ r ∈ regs, motive r := by
  induction h with
  | nil => simp
  | @cons near known first inner rest hstop _ _ _ ihInner ihRest =>
    have hfirst : motive first := hnear first (by simp) hstop
    have hinner : inner ⊆ first :: inner ++ rest := fun r hr => by simp [hr]
    have hrest : rest ⊆ first :: inner ++ rest := fun r hr => by simp [hr]
    -- the art of the first pattern is near for what it registers
    have hall : ∀ r ∈ inner, motive r :=
      ihInner (fun r hr => hcontent first (by simp) r (hinner hr) hfirst)
        fun outer houter r hr => hcontent outer (hinner houter) r (hinner hr)
    intro r hr
    rcases List.mem_append.mp hr with hr | hr
    · rcases List.mem_cons.mp hr with rfl | hr
      · exact hfirst
      · exact hall r hr
    · exact ihRest (fun r hr => hnear r (hrest hr))
        (fun outer houter r hr => hcontent outer (hrest houter) r (hrest hr)) r hr

/-- A registration is made by a node among `near`, or it stands behind that of the pattern whose art
makes it. -/
theorem near_or_precedes (h : art.Unfolds near known regs) {r : Registration} (hr : r ∈ regs) :
    (r.node, r.levels) ∈ near ∨
      ∃ outer, Precedes regs outer r ∧ (r.node, r.levels) ∈ art.contentTour outer := by
  induction h with
  | nil => cases hr
  | @cons near known first inner rest hstop _ _ _ ihInner ihRest =>
    have hinner : (inner : List Registration).Sublist (first :: inner ++ rest) :=
      (List.sublist_cons_self first inner).trans (List.sublist_append_left _ _)
    -- the registration is the first one, is made inside its art, or comes later
    rcases List.mem_append.mp hr with hr | hr
    · rcases List.mem_cons.mp hr with rfl | hr
      · exact Or.inl hstop
      · refine Or.inr ?_
        rcases ihInner hr with hcontent | ⟨outer, hbefore, hcontent⟩
        · -- the art of the first pattern itself makes the registration
          have hbefore : Precedes (first :: inner) first r :=
            Precedes.cons_iff.mpr (Or.inr ⟨rfl, hr⟩)
          exact ⟨first, hbefore.mono (List.sublist_append_left _ _), hcontent⟩
        · exact ⟨outer, hbefore.mono hinner, hcontent⟩
    · refine (ihRest hr).imp id fun ⟨outer, hbefore, hcontent⟩ => ?_
      exact ⟨outer, hbefore.mono (List.sublist_append_right _ _), hcontent⟩

/-- Behind the registration of a pattern stand those that its art makes. With these and those before
it, all that its art uses is registered. -/
theorem exists_split (h : art.Unfolds near known regs) {r : Registration} (hr : r ∈ regs) :
    ∃ before inner after, regs = before ++ r :: inner ++ after ∧
      (∃ known', art.Unfolds (art.contentTour r) known' inner) ∧
      art.Covers (art.contentTour r)
        (known ++ before.map (·.handle) ++ r.handle :: inner.map (·.handle)) := by
  induction h with
  | nil => cases hr
  | @cons near known first inner rest _ hunfolds hcovers _ ihInner ihRest =>
    rcases List.mem_append.mp hr with hr | hr
    · rcases List.mem_cons.mp hr with rfl | hr
      · exact ⟨[], inner, rest, by simp, ⟨_, hunfolds⟩, by simpa using hcovers⟩
      · obtain ⟨before, part, after, rfl, hpart, hcovers'⟩ := ihInner hr
        refine ⟨first :: before, part, after ++ rest, by simp, hpart, ?_⟩
        simpa using hcovers'
    · obtain ⟨before, part, after, rfl, hpart, hcovers'⟩ := ihRest hr
      refine ⟨first :: inner ++ before, part, after, by simp, hpart, ?_⟩
      simpa using hcovers'

end Artwork.Unfolds

/-! ### First uses in the art of patterns -/

namespace ArtDocument

/-- The first use of the pattern `handle` in a scan is by a node in the art of the pattern
`outer`. -/
def FirstUsedIn [CurveLibrary] (doc : ArtDocument) (maxDepth outer handle : Nat) : Prop :=
  ∃ use ∈ (doc.view.scan maxDepth).2.firstUses, use.handle = handle ∧
    ∃ hops, doc.view.walk (.pattern outer) hops = some use.node

/-- The patterns that a scan finds in use, in the order of the table. -/
def inUse [CurveLibrary] (doc : ArtDocument) (maxDepth : Nat) : List Nat :=
  (doc.view.scan maxDepth).2.patterns.handles

variable {doc : ArtDocument} {maxDepth : Nat}

namespace WellLinked

variable [CurveLibrary] (h : doc.WellLinked)

include h

/-- The art of a registered pattern is behind the pattern. -/
theorem walk_of_mem_contentTour {r : Registration} {stop : Nat × Nat}
    (hmem : stop ∈ doc.view.contentTour r) :
    ∃ hops, doc.view.walk (.pattern r.handle) hops = some stop.1 := by
  have htour : stop ∈ doc.view.tourAt r.levels (doc.view.walk (.pattern r.handle) []) := hmem
  obtain ⟨more, hw⟩ := h.behind_of_mem_tourAt htour
  exact ⟨_, hw⟩

/-- A pattern comes before those that are first used in its art. -/
theorem precedes_of_firstUsedIn {outer handle : Nat}
    (hfirst : doc.FirstUsedIn maxDepth outer handle) :
    Precedes (doc.inUse maxDepth) outer handle := by
  obtain ⟨regs, heffect⟩ := doc.view.effect_scan maxDepth
  have hhandles : doc.inUse maxDepth = regs.map (·.handle) := heffect.handles
  obtain ⟨use, huse, rfl, hops, hw⟩ := hfirst
  rw [heffect.firstUses] at huse
  obtain ⟨r, hr, rfl⟩ := List.mem_map.mp huse
  rw [hhandles]
  rcases heffect.unfolds.near_or_precedes hr with hlayer | ⟨outer', hbefore, hcontent⟩
  · -- the node would be in the art of a layer and in that of the pattern
    obtain ⟨layer, -, hstop⟩ := List.mem_flatMap.mp hlayer
    have htour : (r.node, r.levels) ∈
        doc.view.tourAt maxDepth (doc.view.walk (.layer layer) []) := hstop
    obtain ⟨more, hw'⟩ := h.behind_of_mem_tourAt htour
    cases (h.walk_unique hw' hw).1
  · obtain ⟨hops', hw'⟩ := h.walk_of_mem_contentTour hcontent
    obtain rfl := Root.pattern.inj (h.walk_unique hw' hw).1
    exact hbefore.map (·.handle)

/-- A pattern comes before those that are first used in its art, in the art of these, and so on. -/
theorem precedes_of_transGen {outer handle : Nat}
    (hinside : Relation.TransGen (doc.FirstUsedIn maxDepth) outer handle) :
    Precedes (doc.inUse maxDepth) outer handle := by
  have hnodup : (doc.inUse maxDepth).Nodup := by
    obtain ⟨regs, heffect⟩ := doc.view.effect_scan maxDepth
    rw [show doc.inUse maxDepth = regs.map (·.handle) from heffect.handles]
    exact heffect.distinct
  induction hinside with
  | single hfirst => exact h.precedes_of_firstUsedIn hfirst
  | tail _ hfirst ih => exact ih.trans (h.precedes_of_firstUsedIn hfirst) hnodup

/-- With some number of levels the scan went around the art of a pattern in use. What the nodes
there use comes before the pattern, or is the pattern itself, or is first used in its art, in the
art of what is first used there, and so on. -/
theorem exists_tour_of_inUse {handle : Nat} (hmem : handle ∈ doc.inUse maxDepth) :
    ∃ levels, ((doc.view.scan maxDepth).2.warnings = [] →
        doc.view.skipped levels (doc.view.patternContent handle) = []) ∧
      ∀ node ∈ doc.view.tour levels (doc.view.patternContent handle), ∀ other,
        doc.view.Uses node other →
          Precedes (doc.inUse maxDepth) other handle ∨ other = handle ∨
            Relation.TransGen (doc.FirstUsedIn maxDepth) handle other := by
  obtain ⟨regs, heffect⟩ := doc.view.effect_scan maxDepth
  have hhandles : doc.inUse maxDepth = regs.map (·.handle) := heffect.handles
  have huses : (doc.view.scan maxDepth).2.firstUses = regs.map Registration.toPatternUse :=
    heffect.firstUses
  rw [hhandles] at hmem
  obtain ⟨r, hr, rfl⟩ := List.mem_map.mp hmem
  obtain ⟨before, inner, after, hsplit, ⟨known, hinner⟩, hcovers⟩ :=
    heffect.unfolds.exists_split hr
  have hinner_mem : ∀ r' ∈ inner, r' ∈ regs := fun r' hr' => by simp [hsplit, hr']
  -- what the art of a pattern registers is first used there
  have hfirst : ∀ outer r', r' ∈ inner →
      (r'.node, r'.levels) ∈ doc.view.contentTour outer →
        doc.FirstUsedIn maxDepth outer.handle r'.handle := by
    intro outer r' hr' hcontent
    refine ⟨r'.toPatternUse, ?_, rfl, h.walk_of_mem_contentTour hcontent⟩
    rw [huses]
    exact List.mem_map.mpr ⟨r', hinner_mem r' hr', rfl⟩
  have hinside : ∀ r' ∈ inner,
      Relation.TransGen (doc.FirstUsedIn maxDepth) r.handle r'.handle :=
    hinner.forall_of_content (fun r' hr' hnear => .single (hfirst r r' hr' hnear))
      fun outer _ r' hr' houter hcontent => houter.tail (hfirst outer r' hr' hcontent)
  refine ⟨r.levels, fun hnone => (heffect.skipped_eq_nil hnone).2 r hr, ?_⟩
  intro node hnode other hother
  obtain ⟨stop, hstop, rfl⟩ := List.mem_map.mp hnode
  have hknown := hcovers stop hstop other hother
  rcases List.mem_append.mp hknown with hbefore | hlater
  · refine Or.inl ?_
    rw [hhandles, hsplit, List.append_assoc, List.map_append]
    exact .of_append hbefore (by simp)
  · rcases List.mem_cons.mp hlater with rfl | hlater
    · exact Or.inr (Or.inl rfl)
    · obtain ⟨r', hr', rfl⟩ := List.mem_map.mp hlater
      exact Or.inr (Or.inr (hinside r' hr'))

end WellLinked

end ArtDocument

end ArtCanvas
