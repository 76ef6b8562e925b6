import ArtCanvas.Compile.Pattern
import Mathlib.Data.List.Nodup

/-!
# Looking patterns up in a table

What the operations on a `PatternTable` do to the list of registered patterns and to the features
that are kept with them.

* `PatternTable.handles`: the registered patterns, in the order of the table.
* `PatternTable.featuresOf`: the features that are kept with a pattern.
* `PatternTable.add_of_mem`, `PatternTable.add_of_not_mem`: a pattern is new on its first use only.
-/

namespace ArtCanvas

namespace PatternTable

/-- The registered patterns, as positions in the document. -/
def handles (t : PatternTable) : List Nat := t.patterns.map Pattern.handle

/-- The features that are kept with a pattern, if it is registered. -/
def featuresOf (t : PatternTable) (handle : Nat) : Option Features :=
  (t.find? handle).map Pattern.features

/-- A change to the pattern at a position in the document that leaves its position alone. -/
theorem find?_modify (t : PatternTable) (handle other : Nat) {f : Pattern → Pattern}
    (hf : ∀ p, (f p).handle = p.handle) :
    (t.modify handle f).find? other =
      (t.find? other).map fun p => if p.handle == handle then f p else p := by
  -- a search does not see whether a pattern was changed
  have hkey : ∀ p : Pattern, ((if p.handle == handle then f p else p).handle == other) =
      (p.handle == other) := by
    intro p
    split
    · rw [hf]
    · rfl
  rw [find?, modify, List.find?_map]
  simp only [Function.comp_def, hkey]
  rfl

/-- A change to one pattern that a function does not see is not seen in the table. -/
theorem map_modify {α : Type} {g : Pattern → α} {f : Pattern → Pattern} (t : PatternTable)
    (handle : Nat) (hf : ∀ p, g (f p) = g p) :
    (t.modify handle f).patterns.map g = t.patterns.map g := by
  rw [modify, List.map_map]
  refine List.map_congr_left fun p _ => ?_
  rw [Function.comp_apply]
  split
  · exact hf p
  · rfl

theorem find?_handle {t : PatternTable} {handle : Nat} {p : Pattern}
    (h : t.find? handle = some p) : p.handle = handle := by
  simpa using List.find?_some h

theorem find?_eq_none_iff {t : PatternTable} {handle : Nat} :
    t.find? handle = none ↔ handle ∉ t.handles := by
  simp [find?, handles, List.find?_eq_none]

/-- Where no pattern is registered twice, a search for a pattern of the table finds it. -/
theorem find?_of_mem {t : PatternTable} (hdistinct : t.handles.Nodup) {p : Pattern}
    (hp : p ∈ t.patterns) : t.find? p.handle = some p := by
  cases hfind : t.find? p.handle with
  | none => exact absurd (List.mem_map.mpr ⟨p, hp, rfl⟩) (find?_eq_none_iff.mp hfind)
  | some q =>
    have hq : q ∈ t.patterns := List.mem_of_find?_eq_some hfind
    rw [List.inj_on_of_nodup_map hdistinct hq hp (find?_handle hfind)]

/-- Where no pattern is registered twice, the features that are kept with a pattern are its own. -/
theorem featuresOf_of_mem {t : PatternTable} (hdistinct : t.handles.Nodup) {p : Pattern}
    (hp : p ∈ t.patterns) : t.featuresOf p.handle = some p.features := by
  rw [featuresOf, find?_of_mem hdistinct hp, Option.map_some]

/-- Setting the features of one pattern changes nothing else. -/
theorem map_setFeatures {α : Type} {g : Pattern → α}
    (hg : ∀ p features, g { p with features } = g p) (t : PatternTable) (handle : Nat)
    (features : Features) : (t.setFeatures handle features).patterns.map g = t.patterns.map g :=
  map_modify t handle fun p => hg p features

/-- Setting the features of one pattern does not register anything. -/
@[simp]
theorem handles_setFeatures (t : PatternTable) (handle : Nat) (features : Features) :
    (t.setFeatures handle features).handles = t.handles :=
  map_setFeatures (fun _ _ => rfl) t handle features

/-- The features of a registered pattern are those that were set last. -/
theorem featuresOf_setFeatures_self {t : PatternTable} {handle : Nat} (features : Features)
    (hmem : handle ∈ t.handles) : (t.setFeatures handle features).featuresOf handle = features := by
  rw [featuresOf, setFeatures, find?_modify]
  · cases hp : t.find? handle with
    | none => exact absurd hmem (find?_eq_none_iff.mp hp)
    | some p => simp [find?_handle hp]
  · exact fun _ => rfl

/-- Setting the features of one pattern leaves those of the others alone. -/
theorem featuresOf_setFeatures_of_ne (t : PatternTable) {handle other : Nat} (features : Features)
    (hne : other ≠ handle) :
    (t.setFeatures handle features).featuresOf other = t.featuresOf other := by
  rw [featuresOf, featuresOf, setFeatures, find?_modify]
  · cases hp : t.find? other with
    | none => rfl
    | some p => simp [find?_handle hp, hne]
  · exact fun _ => rfl

/-- What holds of all patterns of a table, and is kept by a change, holds of all patterns after the
change. -/
theorem forall_modify {t : PatternTable} {P : Pattern → Prop} {f : Pattern → Pattern}
    (h : ∀ p ∈ t.patterns, P p) (hf : ∀ p, P p → P (f p)) (handle : Nat) :
    ∀ p ∈ (t.modify handle f).patterns, P p := by
  intro p hp
  obtain ⟨q, hq, rfl⟩ := List.mem_map.mp hp
  split
  · exact hf q (h q hq)
  · exact h q hq

/-- What holds of all patterns, whatever their features are, holds after the features of one are
set. -/
theorem forall_setFeatures {t : PatternTable} {P : Pattern → Prop} (h : ∀ p ∈ t.patterns, P p)
    (hfeatures : ∀ p features, P p → P { p with features }) (handle : Nat) (features : Features) :
    ∀ p ∈ (t.setFeatures handle features).patterns, P p :=
  forall_modify h (fun p => hfeatures p features) handle

section Add

variable {t : PatternTable} {handle : Nat} (role : PatternRole) (source : PatternSource)

/-- A canvas that is given to a pattern changes nothing else in the table. -/
theorem map_addCanvas {α : Type} {g : Pattern → α} (hg : ∀ p canvas, g { p with canvas } = g p)
    (t : PatternTable) (p : Pattern) : (t.addCanvas p).patterns.map g = t.patterns.map g := by
  unfold addCanvas
  split
  · exact map_modify t p.handle fun q => hg q _
  · rfl

theorem featuresOf_addCanvas (t : PatternTable) (p : Pattern) (other : Nat) :
    (t.addCanvas p).featuresOf other = t.featuresOf other := by
  unfold addCanvas
  split
  · change ((t.modify p.handle _).find? other).map Pattern.features = _
    rw [find?_modify, Option.map_map, featuresOf]
    · congr 1
      funext q
      rw [Function.comp_apply]
      split <;> rfl
    · exact fun _ => rfl
  · rfl

/-- The use of a registered pattern gives it a canvas at most. -/
theorem map_add_of_mem {α : Type} {g : Pattern → α} (hg : ∀ p canvas, g { p with canvas } = g p)
    (hmem : handle ∈ t.handles) :
    (t.add handle role source).2.patterns.map g = t.patterns.map g := by
  cases hp : t.find? handle with
  | none => exact absurd hmem (find?_eq_none_iff.mp hp)
  | some p =>
    rw [add, hp]
    dsimp only
    split
    · exact map_addCanvas hg t p
    · rfl

/-- The use of a registered pattern is not new, and registers nothing. -/
theorem add_of_mem (hmem : handle ∈ t.handles) :
    (t.add handle role source).1 = false ∧ (t.add handle role source).2.handles = t.handles ∧
      ∀ other, (t.add handle role source).2.featuresOf other = t.featuresOf other := by
  have hhandles : (t.add handle role source).2.handles = t.handles :=
    map_add_of_mem role source (fun _ _ => rfl) hmem
  cases hp : t.find? handle with
  | none => exact absurd hmem (find?_eq_none_iff.mp hp)
  | some p =>
    rw [add, hp] at hhandles ⊢
    dsimp only at hhandles ⊢
    refine ⟨rfl, hhandles, fun other => ?_⟩
    split
    · exact featuresOf_addCanvas t p other
    · rfl

/-- The use of a pattern that is not registered puts it after the others. -/
theorem patterns_add_of_not_mem (hmem : handle ∉ t.handles) :
    (t.add handle role source).2.patterns = t.patterns ++ [t.newPattern handle role source] := by
  rw [add, find?_eq_none_iff.mpr hmem]

/-- The use of a pattern that is not registered is new, and registers it after the others. -/
theorem add_of_not_mem (hmem : handle ∉ t.handles) :
    (t.add handle role source).1 = true ∧
      (t.add handle role source).2.handles = t.handles ++ [handle] ∧
      ∀ other, other ≠ handle →
        (t.add handle role source).2.featuresOf other = t.featuresOf other := by
  refine ⟨?_, ?_, fun other hne => ?_⟩
  · rw [add, find?_eq_none_iff.mpr hmem]
  · rw [handles, patterns_add_of_not_mem role source hmem]
    simp [handles, newPattern]
  · -- the new pattern is last, so a search for another one comes to the others first
    rw [featuresOf, featuresOf, find?, patterns_add_of_not_mem role source hmem, List.find?_append]
    simp [find?, newPattern, Ne.symm hne]

/-- What holds of all patterns of a table, whatever their canvases are, and of the pattern that is
new, holds after a use is registered. -/
theorem forall_add {P : Pattern → Prop} (h : ∀ p ∈ t.patterns, P p)
    (hcanvas : ∀ p canvas, P p → P { p with canvas }) (hnew : P (t.newPattern handle role source)) :
    ∀ p ∈ (t.add handle role source).2.patterns, P p := by
  unfold add
  split
  next p _ =>
    dsimp only
    split
    · unfold addCanvas
      split
      · exact forall_modify h (fun q => hcanvas q _) p.handle
      · exact h
    · exact h
  next =>
    intro p hp
    rcases List.mem_append.mp hp with hp | hp
    · exact h p hp
    · rw [List.mem_singleton.mp hp]
      exact hnew

end Add

end PatternTable

end ArtCanvas
