import ArtCanvas.Proofs.Pattern.Table
import Mathlib.Data.List.Range

/-!
# How hidden canvases are numbered and listed

A table of patterns is made by calls, each of which mentions a pattern, as a symbol or as a paint. A
pattern takes its place in the table when it is first mentioned, and the number of its canvas when
it is first mentioned as a paint, which can be much later. The canvases are listed in the order of
the table.

* `Mention.used`, `Mention.painted`: the patterns in the order of the first mention, and in that of
  the first mention as a paint.
* `PatternTable.Allots`: the places and the canvas numbers that calls lead to.
* `PatternTable.Allots.add`: each call keeps this, so that a table shows exactly its calls.
* `PatternTable.canvasIds`: the numbers in the order in which canvases are listed.
* `PatternTable.Allots.canvasIds_eq_range_iff`: they are in order exactly if both orders of first
  mention agree.
-/

namespace ArtCanvas

/-- One more element comes last if it is new. -/
theorem eraseDups_concat (l : List Nat) (a : Nat) :
    (l ++ [a]).eraseDups = if a ∈ l then l.eraseDups else l.eraseDups ++ [a] := by
  rw [List.eraseDups_append]
  by_cases h : a ∈ l <;> simp [List.removeAll, h, List.eraseDups_cons]

/-- Erasing what comes again leaves each number once. -/
theorem nodup_eraseDups (l : List Nat) : l.eraseDups.Nodup := by
  induction l using List.reverseRecOn with
  | nil => exact List.nodup_nil
  | append_singleton l a ih =>
    rw [eraseDups_concat]
    split
    case isTrue => exact ih
    case isFalse h =>
      refine List.nodup_append.mpr ⟨ih, List.nodup_singleton a, ?_⟩
      rintro b hb _ hc rfl
      rw [List.mem_singleton] at hc
      exact h (hc ▸ List.mem_eraseDups.mp hb)

/-- A call that mentions a pattern. -/
structure Mention where
  /-- The position of the pattern in the document. -/
  handle : Nat
  /-- What the pattern is used as. -/
  role : PatternRole
  deriving DecidableEq, Repr

namespace Mention

/-- The patterns, in the order in which they are first mentioned. -/
def used (mentions : List Mention) : List Nat := (mentions.map handle).eraseDups

/-- The patterns that are mentioned as paints, in the order in which they first are. -/
def painted (mentions : List Mention) : List Nat :=
  ((mentions.filter fun m => m.role = .paint).map handle).eraseDups

/-- The number of the canvas that a pattern gets. -/
def canvas? (mentions : List Mention) (handle : Nat) : Option Nat :=
  if handle ∈ painted mentions then some ((painted mentions).idxOf handle + 1) else none

variable {mentions : List Mention}

/-- The patterns in use are those that are mentioned. -/
theorem mem_used {handle : Nat} : handle ∈ used mentions ↔ handle ∈ mentions.map Mention.handle :=
  List.mem_eraseDups

/-- Each painted pattern is listed once. -/
theorem nodup_painted (mentions : List Mention) : (painted mentions).Nodup := nodup_eraseDups _

/-- A painted pattern is in use. -/
theorem painted_subset_used (mentions : List Mention) : painted mentions ⊆ used mentions := by
  intro handle h
  obtain ⟨m, hm, rfl⟩ := List.mem_map.mp (List.mem_eraseDups.mp h)
  exact mem_used.mpr (List.mem_map_of_mem (List.mem_filter.mp hm).1)

/-- One more mention adds its pattern, unless it was there. -/
theorem used_concat (mentions : List Mention) (m : Mention) :
    used (mentions ++ [m]) =
      if m.handle ∈ used mentions then used mentions else used mentions ++ [m.handle] := by
  rw [used, List.map_append, List.map_singleton, eraseDups_concat]
  simp only [used, List.mem_eraseDups]

/-- Placing a pattern as a symbol does not paint it. -/
theorem painted_concat_symbol (mentions : List Mention) (handle : Nat) :
    painted (mentions ++ [⟨handle, .symbol⟩]) = painted mentions := by
  rw [painted, List.filter_append]
  simp [painted]

/-- Painting with a pattern adds it to the painted ones, unless it was there. -/
theorem painted_concat_paint (mentions : List Mention) (handle : Nat) :
    painted (mentions ++ [⟨handle, .paint⟩]) =
      if handle ∈ painted mentions then painted mentions else painted mentions ++ [handle] := by
  rw [painted, List.filter_append]
  simp only [painted, List.mem_eraseDups]
  simpa using
    eraseDups_concat ((mentions.filter fun m => m.role = .paint).map Mention.handle) handle

/-- A mention as a symbol, or of a pattern that has a canvas, gives no canvas. -/
theorem painted_concat_of_or {handle : Nat} {role : PatternRole}
    (h : role = .symbol ∨ handle ∈ painted mentions) :
    painted (mentions ++ [⟨handle, role⟩]) = painted mentions := by
  cases role with
  | symbol => exact painted_concat_symbol mentions handle
  | paint =>
    have hmem : handle ∈ painted mentions := h.resolve_left fun hrole => by cases hrole
    rw [painted_concat_paint, if_pos hmem]

/-- The first mention as a paint gives a canvas. -/
theorem painted_concat_of_not_mem {handle : Nat} (h : handle ∉ painted mentions) :
    painted (mentions ++ [⟨handle, .paint⟩]) = painted mentions ++ [handle] := by
  rw [painted_concat_paint, if_neg h]

/-- The canvas of a painted pattern is numbered in the order of painting, behind the page. -/
theorem canvas?_of_mem {handle : Nat} (h : handle ∈ painted mentions) :
    canvas? mentions handle = some ((painted mentions).idxOf handle + 1) := if_pos h

/-- A pattern that is not painted has no canvas. -/
theorem canvas?_of_not_mem {handle : Nat} (h : handle ∉ painted mentions) :
    canvas? mentions handle = none := if_neg h

/-- A mention that paints nothing new gives no canvas. -/
theorem canvas?_concat_of_or {handle : Nat} {role : PatternRole}
    (h : role = .symbol ∨ handle ∈ painted mentions) (other : Nat) :
    canvas? (mentions ++ [⟨handle, role⟩]) other = canvas? mentions other := by
  rw [canvas?, painted_concat_of_or h, canvas?]

/-- The first mention as a paint gives the next number. -/
theorem canvas?_concat_self {handle : Nat} (h : handle ∉ painted mentions) :
    canvas? (mentions ++ [⟨handle, .paint⟩]) handle = some ((painted mentions).length + 1) := by
  rw [canvas?, painted_concat_of_not_mem h]
  simp [List.idxOf_append_of_notMem h]

/-- A mention leaves the canvases of the other patterns as they are. -/
theorem canvas?_concat_of_ne {handle other : Nat} (hne : other ≠ handle) (role : PatternRole) :
    canvas? (mentions ++ [⟨handle, role⟩]) other = canvas? mentions other := by
  by_cases h : role = .symbol ∨ handle ∈ painted mentions
  · exact canvas?_concat_of_or h other
  · obtain ⟨hrole, hnew⟩ := not_or.mp h
    cases role with
    | symbol => exact absurd rfl hrole
    | paint =>
      rw [canvas?, painted_concat_of_not_mem hnew]
      by_cases hmem : other ∈ painted mentions
      · simp [canvas?_of_mem hmem, hmem, List.idxOf_append_of_mem hmem]
      · simp [canvas?_of_not_mem hmem, hmem, hne]

end Mention

namespace PatternTable

/-- The table has the mentioned patterns, in the order of the first mention, with canvases that are
numbered in the order of the first mention as a paint. -/
structure Allots (t : PatternTable) (mentions : List Mention) : Prop where
  /-- The places of the patterns. -/
  handles : t.handles = Mention.used mentions
  /-- The numbers of their canvases. -/
  canvas : ∀ p ∈ t.patterns, p.canvas = Mention.canvas? mentions p.handle
  /-- How many canvases there are. -/
  canvases : t.canvases = (Mention.painted mentions).length

/-- Before any mention there is no pattern and no canvas. -/
theorem allots_empty : ({} : PatternTable).Allots [] := ⟨rfl, by simp, rfl⟩

namespace Allots

variable {t t' : PatternTable} {mentions : List Mention}

/-- What shows neither in places nor in canvases is left open by the mentions. -/
theorem of_map_eq (h : t.Allots mentions)
    (hentries : t'.patterns.map (fun p => (p.handle, p.canvas)) =
      t.patterns.map fun p => (p.handle, p.canvas))
    (hcanvases : t'.canvases = t.canvases) : t'.Allots mentions where
  handles := by
    have hfst := congrArg (List.map Prod.fst) hentries
    rw [List.map_map, List.map_map] at hfst
    exact hfst.trans h.handles
  canvas p hp := by
    have hmem : (p.handle, p.canvas) ∈ t'.patterns.map fun p => (p.handle, p.canvas) :=
      List.mem_map_of_mem hp
    rw [hentries] at hmem
    obtain ⟨q, hq, heq⟩ := List.mem_map.mp hmem
    rw [Prod.mk.injEq] at heq
    rw [← heq.2, ← heq.1]
    exact h.canvas q hq
  canvases := hcanvases.trans h.canvases

/-- Setting features changes neither places nor canvases. -/
theorem setFeatures (h : t.Allots mentions) (handle : Nat) (features : Features) :
    (t.setFeatures handle features).Allots mentions :=
  h.of_map_eq (map_setFeatures (fun _ _ => rfl) t handle features) rfl

/-- The first mention of a pattern gives it the last place. -/
theorem add_of_not_mem (h : t.Allots mentions) {handle : Nat} (hmem : handle ∉ t.handles)
    (role : PatternRole) (source : PatternSource) :
    (t.add handle role source).2.Allots (mentions ++ [⟨handle, role⟩]) := by
  have hused : handle ∉ Mention.used mentions := by rwa [← h.handles]
  -- what was never mentioned was never mentioned as a paint either
  have hpainted : handle ∉ Mention.painted mentions :=
    fun hp => hused (Mention.painted_subset_used mentions hp)
  refine ⟨?_, ?_, ?_⟩
  · rw [(PatternTable.add_of_not_mem role source hmem).2.1, h.handles, Mention.used_concat,
      if_neg hused]
  · rw [patterns_add_of_not_mem role source hmem]
    intro p hp
    rcases List.mem_append.mp hp with hp | hp
    · have hne : p.handle ≠ handle := fun heq => hmem (List.mem_map.mpr ⟨p, hp, heq⟩)
      rw [Mention.canvas?_concat_of_ne hne]
      exact h.canvas p hp
    · rw [List.mem_singleton.mp hp]
      cases role with
      | symbol =>
        rw [Mention.canvas?_concat_of_or (Or.inl rfl)]
        exact (Mention.canvas?_of_not_mem hpainted).symm
      | paint =>
        refine Eq.trans ?_ (Mention.canvas?_concat_self hpainted).symm
        rw [← h.canvases]
        rfl
  · rw [add, find?_eq_none_iff.mpr hmem]
    cases role with
    | symbol => rw [Mention.painted_concat_symbol]; exact h.canvases
    | paint => simp [Mention.painted_concat_of_not_mem hpainted, h.canvases]

/-- A pattern that is known is not added again. -/
theorem used_concat_of_mem (h : t.Allots mentions) {handle : Nat} (hmem : handle ∈ t.handles)
    (role : PatternRole) :
    Mention.used (mentions ++ [⟨handle, role⟩]) = Mention.used mentions := by
  rw [h.handles] at hmem
  rw [Mention.used_concat, if_pos hmem]

/-- A table stays right if the pattern is in it and the mention gives it no canvas. -/
theorem concat_of_or (h : t.Allots mentions) {handle : Nat} (hmem : handle ∈ t.handles)
    {role : PatternRole} (hor : role = .symbol ∨ handle ∈ Mention.painted mentions) :
    t.Allots (mentions ++ [⟨handle, role⟩]) where
  handles := by rw [h.used_concat_of_mem hmem, h.handles]
  canvas p hp := by rw [Mention.canvas?_concat_of_or hor, h.canvas p hp]
  canvases := by rw [Mention.painted_concat_of_or hor, h.canvases]

/-- Another mention as a paint gives a pattern a canvas, if it has none yet. -/
theorem addCanvas (h : t.Allots mentions) {p : Pattern} (hp : p ∈ t.patterns) :
    (t.addCanvas p).Allots (mentions ++ [⟨p.handle, .paint⟩]) := by
  have hmem : p.handle ∈ t.handles := List.mem_map_of_mem hp
  unfold PatternTable.addCanvas
  -- whether the pattern has a canvas is the same as whether it was mentioned as a paint
  rw [h.canvas p hp]
  by_cases hpainted : p.handle ∈ Mention.painted mentions
  · rw [Mention.canvas?_of_mem hpainted, if_neg (by simp)]
    exact h.concat_of_or hmem (Or.inr hpainted)
  · rw [Mention.canvas?_of_not_mem hpainted, if_pos (by simp)]
    refine ⟨?_, fun q' hq' => ?_, ?_⟩
    · rw [h.used_concat_of_mem hmem, ← h.handles]
      exact map_modify t p.handle fun _ => rfl
    · obtain ⟨q, hq, rfl⟩ := List.mem_map.mp hq'
      by_cases heq : q.handle = p.handle
      · simp [heq, Mention.canvas?_concat_self hpainted, h.canvases]
      · simp [heq, Mention.canvas?_concat_of_ne heq, h.canvas q hq]
    · rw [Mention.painted_concat_of_not_mem hpainted, List.length_append, ← h.canvases]
      rfl

/-- Each call for a pattern adds its mention. -/
theorem add (h : t.Allots mentions) (handle : Nat) (role : PatternRole) (source : PatternSource) :
    (t.add handle role source).2.Allots (mentions ++ [⟨handle, role⟩]) := by
  cases hfind : t.find? handle with
  | none => exact h.add_of_not_mem (find?_eq_none_iff.mp hfind) role source
  | some p =>
    have hp : p ∈ t.patterns := List.mem_of_find?_eq_some hfind
    cases find?_handle hfind
    rw [PatternTable.add, hfind]
    cases role with
    | symbol => exact h.concat_of_or (List.mem_map_of_mem hp) (Or.inl rfl)
    | paint => exact h.addCanvas hp

end Allots

/-- The table after calls for patterns, each with what the document says about the pattern. -/
def register (t : PatternTable) (calls : List (Mention × PatternSource)) : PatternTable :=
  calls.foldl (fun t (mention, source) => (t.add mention.handle mention.role source).2) t

/-- After any calls, patterns and canvases are those of all mentions so far. -/
theorem Allots.register {t : PatternTable} {mentions : List Mention} (h : t.Allots mentions)
    (calls : List (Mention × PatternSource)) :
    (t.register calls).Allots (mentions ++ calls.map Prod.fst) := by
  -- the first call goes over to the mentions before the others are made
  induction calls generalizing t mentions with
  | nil => rwa [List.map_nil, List.append_nil]
  | cons call calls ih =>
    rw [List.map_cons, List.append_cons]
    exact ih (h.add call.1.handle call.1.role call.2)

/-- A table shows the calls that it was made by. -/
theorem allots_register (calls : List (Mention × PatternSource)) :
    (({} : PatternTable).register calls).Allots (calls.map Prod.fst) := by
  simpa using allots_empty.register calls

/-! ### The order of the canvases -/

/-- The numbers of the hidden canvases, in the order in which they are listed. -/
def canvasIds (t : PatternTable) : List Nat := t.tiles.filterMap Pattern.canvas

end PatternTable

namespace Mention

/-- The patterns that are mentioned as paints, in the order in which they are first mentioned at
all. -/
def paintedAsUsed (mentions : List Mention) : List Nat :=
  (used mentions).filter fun handle => handle ∈ painted mentions

/-- Both orders are of the same patterns. -/
theorem paintedAsUsed_perm (mentions : List Mention) :
    (paintedAsUsed mentions).Perm (painted mentions) := by
  have hnodup : (paintedAsUsed mentions).Nodup := (nodup_eraseDups _).filter _
  refine (List.perm_ext_iff_of_nodup hnodup (nodup_painted mentions)).mpr fun handle => ?_
  rw [paintedAsUsed, List.mem_filter, decide_eq_true_iff, and_iff_right_iff_imp]
  exact fun h => painted_subset_used mentions h

/-- In the order of the first mention as a paint, the canvases are numbered from 1 on. -/
theorem map_idxOf_painted (mentions : List Mention) :
    (painted mentions).map (fun handle => (painted mentions).idxOf handle + 1) =
      List.range' 1 (painted mentions).length := by
  refine List.ext_getElem (by simp) fun i hi hi' => ?_
  rw [List.getElem_map, (nodup_painted mentions).idxOf_getElem, List.getElem_range']
  omega

end Mention

namespace PatternTable.Allots

variable {t : PatternTable} {mentions : List Mention} (h : t.Allots mentions)

include h

/-- The canvases are listed in the order of first mentions, and numbered in the order of first
mentions as paints. -/
theorem canvasIds_eq :
    t.canvasIds = (Mention.paintedAsUsed mentions).map fun handle =>
      (Mention.painted mentions).idxOf handle + 1 := by
  calc t.canvasIds
      = t.patterns.filterMap Pattern.canvas := by
        rw [canvasIds, tiles, List.filterMap_filter]
        refine List.filterMap_congr fun p _ => ?_
        cases p.canvas <;> rfl
    _ = t.patterns.filterMap (Mention.canvas? mentions ∘ Pattern.handle) :=
        List.filterMap_congr h.canvas
    _ = (Mention.used mentions).filterMap (Mention.canvas? mentions) := by
        rw [← h.handles]
        exact List.filterMap_map.symm
    _ = _ := by
        rw [Mention.paintedAsUsed, ← List.filterMap_eq_map, List.filterMap_filter]
        refine List.filterMap_congr fun handle _ => ?_
        simp [Mention.canvas?]

/-- There are as many canvases as painted patterns. -/
theorem length_canvasIds : t.canvasIds.length = (Mention.painted mentions).length := by
  rw [h.canvasIds_eq, List.length_map, (Mention.paintedAsUsed_perm mentions).length_eq]

/-- The numbers of the canvases are those from 1 on. -/
theorem canvasIds_perm : t.canvasIds.Perm (List.range' 1 t.canvasIds.length) := by
  rw [h.length_canvasIds, ← Mention.map_idxOf_painted, h.canvasIds_eq]
  exact (Mention.paintedAsUsed_perm mentions).map _

/-- The canvases are listed in the order of their numbers exactly if the patterns that are mentioned
as paints are first mentioned in the order in which they are first mentioned as paints. -/
theorem canvasIds_eq_range_iff :
    t.canvasIds = List.range' 1 t.canvasIds.length ↔
      Mention.paintedAsUsed mentions = Mention.painted mentions := by
  rw [h.length_canvasIds, ← Mention.map_idxOf_painted, h.canvasIds_eq]
  constructor
  · intro heq
    have hperm := Mention.paintedAsUsed_perm mentions
    refine List.ext_getElem hperm.length_eq fun i hi hi' => ?_
    -- the numbers at one place are equal, and a number belongs to one pattern
    have hnumber : (Mention.painted mentions).idxOf (Mention.paintedAsUsed mentions)[i] + 1 =
        (Mention.painted mentions).idxOf (Mention.painted mentions)[i] + 1 := by
      simpa [hi, hi'] using congrArg (·[i]?) heq
    have hmem := hperm.mem_iff.mp (List.getElem_mem hi)
    exact (List.idxOf_inj hmem).mp (Nat.succ.inj hnumber)
  · intro heq
    rw [heq]

/-- As the numbers are those from 1 on, they are in order if they increase. -/
theorem canvasIds_pairwise_iff :
    t.canvasIds.Pairwise (· < ·) ↔ Mention.paintedAsUsed mentions = Mention.painted mentions := by
  rw [← h.canvasIds_eq_range_iff]
  constructor
  · intro hlt
    exact h.canvasIds_perm.eq_of_pairwise (fun _ _ _ _ hab hba => absurd hab (lt_asymm hba)) hlt
      (List.pairwise_lt_range' 1)
  · intro heq
    rw [heq]
    exact List.pairwise_lt_range' 1

end PatternTable.Allots

end ArtCanvas
