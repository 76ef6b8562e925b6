import ArtCanvas.Proofs.Identifier.Name
import ArtCanvas.Proofs.Pattern.Canvases
import ArtCanvas.Proofs.Pattern.Names

/-!
# What calls for patterns lead to

A scan finds patterns in any order, and most of them more than once. Whatever the calls are, the
table that they make tells first calls from later ones, names patterns apart, numbers canvases
without gaps, and never takes back what it has given to a pattern.

* `PatternTable.Extends`: a later table, with all that an earlier one has given to patterns.
* `PatternTable.extends_add`, `PatternTable.extends_register`: each call leads to such a table, and
  so does any run of calls.
* `PatternTable.isName_register`, `PatternTable.nodup_names_register`: what the names are.
* `PatternTable.isSome_canvas_register_iff`, `PatternTable.canvasIds_register_perm`: which patterns
  have canvases, and how these are numbered.
* `PatternTable.register_calls`: all of this, for the table that calls make of an empty one.
-/

namespace ArtCanvas

/-- One call for a pattern: what is mentioned, and what the document says about it. -/
abbrev PatternCall : Type := Mention × PatternSource

/-- The patterns that are mentioned as paints. -/
theorem Mention.mem_painted {mentions : List Mention} {handle : Nat} :
    handle ∈ painted mentions ↔ ⟨handle, .paint⟩ ∈ mentions := by
  rw [painted, List.mem_eraseDups, List.mem_map]
  constructor
  · rintro ⟨⟨handle, role⟩, hm, rfl⟩
    obtain ⟨hm, hrole⟩ := List.mem_filter.mp hm
    cases of_decide_eq_true hrole
    exact hm
  · exact fun hm => ⟨_, List.mem_filter.mpr ⟨hm, rfl⟩, rfl⟩

namespace Pattern

/-- The same pattern at a later time: it keeps its name, and its canvas once it has one. -/
structure BecomesLater (p q : Pattern) : Prop where
  handle : q.handle = p.handle
  name : q.name = p.name
  canvas : ∀ canvas, p.canvas = some canvas → q.canvas = some canvas

namespace BecomesLater

variable {p q r : Pattern}

theorem refl (p : Pattern) : p.BecomesLater p := ⟨rfl, rfl, fun _ h => h⟩

theorem trans (hpq : p.BecomesLater q) (hqr : q.BecomesLater r) : p.BecomesLater r where
  handle := hqr.handle.trans hpq.handle
  name := hqr.name.trans hpq.name
  canvas canvas h := hqr.canvas canvas (hpq.canvas canvas h)

/-- A pattern without a canvas may be given any. -/
theorem of_canvas_eq_none (h : p.canvas = none) (canvas : Option Nat) :
    p.BecomesLater { p with canvas } where
  handle := rfl
  name := rfl
  canvas c hc := by rw [h] at hc; cases hc

end BecomesLater

end Pattern

namespace PatternTable

/-- A later table: each pattern is in its place, with the name and the canvas that it had. -/
def Extends (t' t : PatternTable) : Prop :=
  ∀ (i : Nat) (p : Pattern), t.patterns[i]? = some p →
    ∃ q, t'.patterns[i]? = some q ∧ p.BecomesLater q

namespace Extends

variable {t t' t'' : PatternTable}

theorem refl (t : PatternTable) : t.Extends t := fun _ p hp => ⟨p, hp, .refl p⟩

theorem trans (h' : t''.Extends t') (h : t'.Extends t) : t''.Extends t := by
  intro i p hp
  obtain ⟨q, hq, hpq⟩ := h i p hp
  obtain ⟨r, hr, hqr⟩ := h' i q hq
  exact ⟨r, hr, hpq.trans hqr⟩

end Extends

section Step

variable (t : PatternTable) (handle : Nat) (role : PatternRole) (source : PatternSource)

/-- A call tells whether it is the first one for its pattern. -/
theorem add_fst_iff : (t.add handle role source).1 = true ↔ handle ∉ t.handles := by
  by_cases hmem : handle ∈ t.handles
  · simp [(add_of_mem role source hmem).1, hmem]
  · simp [(add_of_not_mem role source hmem).1, hmem]

/-- A canvas is given to a pattern that has none, and where no pattern is registered twice, to no
other one. -/
theorem extends_addCanvas {t : PatternTable} (hdistinct : t.handles.Nodup) {p : Pattern}
    (hp : p ∈ t.patterns) : (t.addCanvas p).Extends t := by
  unfold addCanvas
  by_cases hnone : p.canvas.isNone = true
  · rw [if_pos hnone]
    intro i q hq
    have hget : (t.modify p.handle fun q => { q with canvas := some (t.canvases + 1) }).patterns[i]?
        = some (if q.handle == p.handle then { q with canvas := some (t.canvases + 1) }
            else q) := by
      rw [modify, List.getElem?_map, hq, Option.map_some]
    refine ⟨_, hget, ?_⟩
    by_cases hsame : q.handle = p.handle
    · -- only `p` itself has this position in the document
      obtain rfl := List.inj_on_of_nodup_map hdistinct (List.mem_of_getElem? hq) hp hsame
      rw [if_pos (beq_self_eq_true q.handle)]
      exact .of_canvas_eq_none (Option.isNone_iff_eq_none.mp hnone) _
    · rw [if_neg (by simpa using hsame)]
      exact .refl q
  · rw [if_neg hnone]
    exact .refl t

/-- Each call leads to a later table. -/
theorem extends_add {t : PatternTable} (hdistinct : t.handles.Nodup) :
    (t.add handle role source).2.Extends t := by
  cases hfind : t.find? handle with
  | none =>
    have hpatterns := patterns_add_of_not_mem role source (find?_eq_none_iff.mp hfind)
    intro i p hp
    refine ⟨p, ?_, .refl p⟩
    rw [hpatterns, List.getElem?_append_left (List.getElem?_eq_some_iff.mp hp).1, hp]
  | some p =>
    rw [add, hfind]
    cases role with
    | symbol => exact .refl t
    | paint => exact extends_addCanvas hdistinct (List.mem_of_find?_eq_some hfind)

/-- The name of a new pattern is an identifier, whatever the document calls the pattern. -/
theorem isName_newPattern : Identifier.IsName (t.newPattern handle role source).name := by
  have hdefault : Identifier.IsName defaultName :=
    ⟨by decide, ⟨'p', ['a', 't', 't', 'e', 'r', 'n'], rfl, rfl⟩, ⟨'n', rfl, rfl⟩⟩
  exact (Identifier.isName_ofTextOr hdefault source.name).unique _

end Step

section Run

variable {t : PatternTable} (calls more : List PatternCall)

theorem register_append (t : PatternTable) :
    t.register (calls ++ more) = (t.register calls).register more := List.foldl_append

/-- What each call keeps, a run of calls keeps. -/
theorem register_of_add {P : PatternTable → Prop}
    (hadd : ∀ t handle role source, P t → P (t.add handle role source).2) (h : P t) :
    P (t.register calls) := by
  induction calls generalizing t with
  | nil => exact h
  | cons call calls ih => exact ih (hadd t call.1.handle call.1.role call.2 h)

/-- The names of the patterns are different. -/
theorem nodup_names_register : (({} : PatternTable).register calls).names.Nodup :=
  register_of_add (P := fun t => t.names.Nodup) calls
    (fun _ handle role source h => nodup_names_add h handle role source) List.nodup_nil

/-- The names of the patterns are identifiers. -/
theorem isName_register :
    ∀ p ∈ (({} : PatternTable).register calls).patterns, Identifier.IsName p.name := by
  refine register_of_add (P := fun t => ∀ p ∈ t.patterns, Identifier.IsName p.name) calls
    (fun t handle role source h => ?_) (by simp)
  exact forall_add role source h (fun _ _ hp => hp) (isName_newPattern t handle role source)

/-- The patterns are those of the calls, in the order of the first calls for them. -/
theorem handles_register :
    (({} : PatternTable).register calls).handles =
      (calls.map fun call => call.1.handle).eraseDups := by
  rw [(allots_register calls).handles, Mention.used, List.map_map]
  rfl

theorem nodup_handles_register : (({} : PatternTable).register calls).handles.Nodup := by
  rw [handles_register]
  exact nodup_eraseDups _

/-- A pattern has a canvas exactly if some call was for it as a paint. -/
theorem isSome_canvas_register_iff {p : Pattern}
    (hp : p ∈ (({} : PatternTable).register calls).patterns) :
    p.canvas.isSome = true ↔ ∃ source, (⟨p.handle, .paint⟩, source) ∈ calls := by
  have hcall : (∃ source, (⟨p.handle, .paint⟩, source) ∈ calls) ↔
      (⟨p.handle, .paint⟩ : Mention) ∈ calls.map Prod.fst := by
    simp
  rw [(allots_register calls).canvas p hp, hcall, ← Mention.mem_painted]
  by_cases hmem : p.handle ∈ Mention.painted (calls.map Prod.fst)
  · simp [Mention.canvas?_of_mem hmem, hmem]
  · simp [Mention.canvas?_of_not_mem hmem, hmem]

/-- The canvases are numbered from 1 on, without gaps. -/
theorem canvasIds_register_perm :
    (({} : PatternTable).register calls).canvasIds.Perm
      (List.range' 1 (({} : PatternTable).register calls).canvases) := by
  have hallots := allots_register calls
  have hlength : (({} : PatternTable).register calls).canvasIds.length =
      (({} : PatternTable).register calls).canvases :=
    hallots.length_canvasIds.trans hallots.canvases.symm
  rw [← hlength]
  exact hallots.canvasIds_perm

/-- More calls lead to a later table. -/
theorem extends_register :
    (({} : PatternTable).register (calls ++ more)).Extends
      (({} : PatternTable).register calls) := by
  -- from the last call back, so that each table is one that calls made of an empty one
  induction more using List.reverseRecOn with
  | nil => rw [List.append_nil]; exact .refl _
  | append_singleton more call ih =>
    rw [← List.append_assoc, register_append _ [call]]
    exact (extends_add call.1.handle call.1.role call.2 (nodup_handles_register _)).trans ih

/-- Calls for patterns, from an empty table on. The next call is new exactly if it is the first one
for its pattern. The patterns are listed in the order of the first calls, with different names that
are identifiers. Those with a canvas are those that some call wanted as a paint, and the canvases
have the numbers from 1 on, each once. No call after that changes the place, the name or the canvas
of a pattern. -/
theorem register_calls :
    (∀ handle role source,
      ((({} : PatternTable).register calls).add handle role source).1 = true ↔
        ∀ call ∈ calls, call.1.handle ≠ handle) ∧
    (({} : PatternTable).register calls).handles =
      (calls.map fun call => call.1.handle).eraseDups ∧
    (({} : PatternTable).register calls).names.Nodup ∧
    (∀ p ∈ (({} : PatternTable).register calls).patterns, Identifier.IsName p.name ∧
      (p.canvas.isSome = true ↔ ∃ source, (⟨p.handle, .paint⟩, source) ∈ calls)) ∧
    (({} : PatternTable).register calls).canvasIds.Nodup ∧
    (∀ id, id ∈ (({} : PatternTable).register calls).canvasIds ↔
      1 ≤ id ∧ id ≤ (({} : PatternTable).register calls).canvases) ∧
    ∀ more : List PatternCall,
      (({} : PatternTable).register (calls ++ more)).Extends
        (({} : PatternTable).register calls) := by
  have hperm := canvasIds_register_perm calls
  refine ⟨fun handle role source => ?_, handles_register calls, nodup_names_register calls,
    fun p hp => ⟨isName_register calls p hp, isSome_canvas_register_iff calls hp⟩,
    hperm.nodup_iff.mpr List.nodup_range', fun id => ?_, extends_register calls⟩
  · rw [add_fst_iff, handles_register]
    simp
  · rw [hperm.mem_iff, List.mem_range'_1]
    omega

end Run

end PatternTable

end ArtCanvas
