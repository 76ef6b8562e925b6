import ArtCanvas.Proofs.Artwork.Walks
import ArtCanvas.Proofs.Compile.Functions
import ArtCanvas.Proofs.Script.Written
import Mathlib.Data.List.Flatten

/-!
# Clocks and paths of a script

What a script declares, wires, starts and reads is put together by separate loops over functions,
clocks and triggers, each with a filter of its own. This module shows that they agree.

* `drawClockName_inj`, `ClockRef.text_inj`: different clocks are written differently.
* `Compiled.clockRefs`: the clocks of all functions, none of them twice.
* `Compiled.Declares`: what it means that a clock or a path is declared.
* `Compiled.declares_clockRefs`: all that a script refers to is declared once.
* `Compiled.map_some_wirings`: every trigger with a source is wired once.
* `Compiled.mem_starts_iff`: every running clock is started unless it is driven.
* `Compiled.animated_of_moving`: nothing of this exists in a script that cannot move.
-/

namespace ArtCanvas

/-- The endings of clock names are different, and none of them is the end of another one. -/
theorem drawClockName_inj {f g : String} {kind kind' : ClockKind}
    (h : drawClockName f kind = drawClockName g kind') : f = g ∧ kind = kind' := by
  -- read from the end, the first letter of the endings that differs is reached before the names
  have hreverse := congrArg (fun name => name.toList.reverse) h
  simp only [drawClockName, String.toList_append, List.reverse_append] at hreverse
  have hkind : kind = kind' := by
    cases kind <;> cases kind' <;> first | rfl | simp [ClockKind.ending] at hreverse
  subst hkind
  exact ⟨(String.append_left_inj _).mp h, rfl⟩

namespace ClockRef

/-- The name of the function that has the clock. -/
def function : ClockRef → String
  | .ofPath function => function
  | .ofDraw function _ => function

/-- Clocks of functions whose names have the shape of names are written differently. -/
theorem text_inj {r r' : ClockRef} (hr : Identifier.IsName r.function)
    (hr' : Identifier.IsName r'.function) (h : r.text = r'.text) : r = r' := by
  -- the name of an object is told from that of a clock by the letter before the last word
  have hpath : ∀ {f g : String} {kind : ClockKind},
      ClockRef.text (.ofPath f) ≠ ClockRef.text (.ofDraw g kind) := by
    intro f g kind heq
    have hreverse := congrArg (fun name => name.toList.reverse) heq
    simp only [text, drawClockName, String.toList_append, List.reverse_append] at hreverse
    cases kind <;> simp [ClockKind.ending] at hreverse
  cases r with
  | ofPath f =>
    cases r' with
    | ofPath g => exact congrArg _ (hr.escape_inj hr' ((String.append_left_inj _).mp h))
    | ofDraw g kind' => exact absurd h hpath
  | ofDraw f kind =>
    cases r' with
    | ofPath g => exact absurd h.symm hpath
    | ofDraw g kind' =>
      obtain ⟨rfl, rfl⟩ := drawClockName_inj h
      rfl

end ClockRef

/-- A clock is referred to by the name of its function. -/
theorem ArtFunction.function_clockRef (f : ArtFunction) (kind : ClockKind) :
    (f.clockRef kind).function = f.name := by
  cases f <;> rfl

/-- What a statement of a frame reads: a clock, or the path that it goes along. -/
def FrameStmt.clockRef? : FrameStmt → Option ClockRef
  | .moveAlong function => some (.ofPath function)
  | .turnAlong function _ => some (.ofPath function)
  | .applyClock function kind => some (.ofDraw function kind)
  | _ => none

namespace Script

variable (s : Script)

/-- The names under which the clocks of draw functions are declared. -/
def clockNames : List String := s.clocks.map fun o => drawClockName o.function o.clock.kind

/-- The names under which paths are declared, each with its own clock. -/
def pathNames : List String := s.paths.map fun o => Identifier.escape o.function

/-- The lines that make one clock listen to another. -/
def wirings : List Wiring := (s.startup.map Startup.wirings).getD []

/-- The clocks that are started at once. -/
def starts : List ClockRef := (s.startup.map Startup.starts).getD []

/-- All clocks and paths that the script refers to: in a frame, in the wirings, and at the start. -/
def clockRefs (o : EmitOptions) : List ClockRef :=
  (s.frameBody o).filterMap FrameStmt.clockRef? ++
    s.wirings.flatMap (fun w => [w.source, w.target]) ++ s.starts

end Script

namespace Compiled

variable (c : Compiled)

/-- A script declares a clock of a draw function exactly once, or the path of a compiled animation
function exactly once. -/
def Declares (script : Script) : ClockRef → Prop
  | .ofDraw function kind => script.clockNames.count (drawClockName function kind) = 1
  | .ofPath function => ∃ f, .animation f ∈ c.functions.functions ∧ f.header.name = function ∧
      c.pathObject f ∈ script.paths ∧ script.pathNames.count (Identifier.escape function) = 1

/-- The clocks of all functions. -/
def clockRefs : List ClockRef :=
  c.functions.functions.flatMap fun f => f.clocks.map fun clock => f.clockRef clock.kind

/-- The clocks of draw functions that are declared. -/
def declaredRefs : List ClockRef :=
  (c.functions.draws.flatMap c.clockObjects).map fun o => .ofDraw o.function o.clock.kind

/-- The clocks of animation functions. -/
def pathRefs : List ClockRef := c.functions.animations.map fun entry => .ofPath entry.2.header.name

/-- A clock is in use if it runs, is driven, or is listened to. -/
def InUse (i : Nat) (clock : Clock Float) : Prop :=
  clock.isActive = true ∨ c.isTarget i clock.kind = true ∨ c.isSource i clock.kind = true

variable {c} {art : Artwork} {f g : ArtFunction} {i j : Nat} {clock clock' : Clock Float}

/-- The resolved triggers are those that have a source, each with the positions of both functions.
-/
theorem mem_resolvedTriggers_iff {t : Trigger} :
    (i, t, j) ∈ c.resolvedTriggers ↔
      ∃ f, c.functions.functions[i]? = some f ∧ t ∈ f.triggers ∧ t.source = some j := by
  rw [resolvedTriggers, List.mem_flatMap]
  constructor
  · rintro ⟨⟨f, k⟩, hf, hmem⟩
    obtain ⟨t', ht', heq⟩ := List.mem_filterMap.mp hmem
    obtain ⟨source, hsource, heq⟩ := Option.map_eq_some_iff.mp heq
    cases heq
    exact ⟨f, List.mk_mem_zipIdx_iff_getElem?.mp hf, ht', hsource⟩
  · rintro ⟨f, hf, ht, hsource⟩
    refine ⟨(f, i), List.mk_mem_zipIdx_iff_getElem?.mpr hf, ?_⟩
    exact List.mem_filterMap.mpr ⟨t, ht, by rw [hsource]; rfl⟩

/-- The clocks of a document, function by function. -/
theorem clockRefs_eq : c.clockRefs = c.functions.functions.zipIdx.flatMap fun entry =>
    entry.1.clocks.map fun clock => entry.1.clockRef clock.kind := by
  conv_lhs => rw [clockRefs, ← List.zipIdx_map_fst 0 c.functions.functions, List.flatMap_map]

/-- The clocks that are started are some of all, in the same order. -/
theorem starts_sublist : c.startup.starts.Sublist c.clockRefs := by
  rw [clockRefs_eq]
  exact List.Sublist.flatMap_right _ fun entry _ => List.filter_sublist.map _

/-- So are the clocks that are declared. -/
theorem declaredRefs_sublist : c.declaredRefs.Sublist c.clockRefs := by
  rw [clockRefs_eq, declaredRefs, FunctionTable.draws, List.filterMap_eq_flatMap_toList,
    List.flatMap_assoc, List.map_flatMap]
  refine List.Sublist.flatMap_right _ fun entry _ => ?_
  obtain ⟨f, i⟩ := entry
  cases f with
  | animation f => exact List.nil_sublist _
  | draw f =>
    simp only [ArtFunction.asDraw?, Option.map_some, Option.toList_some, List.flatMap_singleton,
      clockObjects, List.map_map]
    exact List.filter_sublist.map _

/-- So are the clocks of paths. -/
theorem pathRefs_sublist : c.pathRefs.Sublist c.clockRefs := by
  rw [clockRefs_eq, pathRefs, FunctionTable.animations, List.filterMap_eq_flatMap_toList,
    List.map_flatMap]
  refine List.Sublist.flatMap_right _ fun entry _ => ?_
  obtain ⟨f, i⟩ := entry
  cases f with
  | draw f => exact List.nil_sublist _
  | animation f => exact List.Sublist.refl _

section Bound

variable (hb : c.functions.Bound)

include hb

/-- No clock is there twice, as functions have different names and clocks of different kinds. -/
theorem nodup_clockRefs : c.clockRefs.Nodup := by
  rw [clockRefs, List.nodup_flatMap]
  constructor
  · -- within one function, by the kinds of its clocks
    intro f hf
    have hkinds : (f.clocks.map fun clock => f.clockRef clock.kind) =
        f.clockKinds.map f.clockRef := by
      rw [← hb.clocks f hf, List.map_map]
      rfl
    rw [hkinds]
    cases f <;> simp [ArtFunction.clockKinds, ArtFunction.clockRef]
  · -- between two functions, by their names
    refine (List.pairwise_map.mp hb.names).imp fun {f g} hne ref hf hg => hne ?_
    obtain ⟨clock, -, rfl⟩ := List.mem_map.mp hf
    obtain ⟨clock', -, heq⟩ := List.mem_map.mp hg
    rw [← f.function_clockRef clock.kind, ← heq, g.function_clockRef]

/-- The functions of clocks have names that are words. -/
theorem isName_of_mem_clockRefs {ref : ClockRef} (href : ref ∈ c.clockRefs) :
    Identifier.IsName ref.function := by
  obtain ⟨f, hf, hclock⟩ := List.mem_flatMap.mp href
  obtain ⟨clock, -, rfl⟩ := List.mem_map.mp hclock
  rw [f.function_clockRef]
  exact hb.name f hf

/-- Clocks that are taken from those of all functions are written differently. -/
theorem nodup_texts {refs : List ClockRef} (hrefs : refs.Sublist c.clockRefs) :
    (refs.map ClockRef.text).Nodup :=
  (hrefs.nodup (nodup_clockRefs hb)).map_on fun _ hr _ hr' =>
    ClockRef.text_inj (isName_of_mem_clockRefs hb (hrefs.subset hr))
      (isName_of_mem_clockRefs hb (hrefs.subset hr'))

/-- Among clocks that are taken from those of all functions, one is written as often as it is
taken, which is once or not at all. -/
theorem count_text {refs : List ClockRef} (hrefs : refs.Sublist c.clockRefs) {ref : ClockRef}
    (href : ref ∈ c.clockRefs) :
    (refs.map ClockRef.text).count ref.text = if ref ∈ refs then 1 else 0 := by
  split
  next hmem => exact List.count_eq_one_of_mem (nodup_texts hb hrefs) (List.mem_map_of_mem hmem)
  next hmem =>
    refine List.count_eq_zero.mpr fun htext => hmem ?_
    obtain ⟨ref', href', heq⟩ := List.mem_map.mp htext
    rwa [← ClockRef.text_inj (isName_of_mem_clockRefs hb (hrefs.subset href'))
      (isName_of_mem_clockRefs hb href) heq]

omit hb in
/-- Each clock of each function is among them. -/
theorem mem_clockRefs (hf : c.functions.functions[i]? = some f) (hclock : clock ∈ f.clocks) :
    f.clockRef clock.kind ∈ c.clockRefs :=
  List.mem_flatMap.mpr ⟨f, List.mem_of_getElem? hf, List.mem_map_of_mem hclock⟩

/-- A clock belongs to one function, and is one of its clocks. -/
theorem clock_unique (hf : c.functions.functions[i]? = some f) (hclock : clock ∈ f.clocks)
    (hg : c.functions.functions[j]? = some g) (hclock' : clock' ∈ g.clocks)
    (heq : f.clockRef clock.kind = g.clockRef clock'.kind) : i = j ∧ clock = clock' := by
  have hname : f.name = g.name := by
    rw [← f.function_clockRef clock.kind, heq, g.function_clockRef]
  -- different functions have different names
  have hindex : c.functions.names[i]? = c.functions.names[j]? := by
    rw [FunctionTable.names, List.getElem?_map, List.getElem?_map, hf, hg, Option.map_some,
      Option.map_some, hname]
  have hi : i < c.functions.names.length := by
    rw [FunctionTable.names, List.length_map]
    exact (List.getElem?_eq_some_iff.mp hf).1
  obtain rfl := (List.getElem?_inj hi hb.names).mp hindex
  obtain rfl := Option.some.inj (hf.symm.trans hg)
  refine ⟨rfl, ?_⟩
  -- clocks of one function have different kinds
  have hkinds := hb.clocks f (List.mem_of_getElem? hf)
  have hnodup : (f.clocks.map Clock.kind).Nodup := by
    rw [hkinds]
    cases f <;> simp [ArtFunction.clockKinds]
  refine List.inj_on_of_nodup_map hnodup hclock hclock' ?_
  cases f with
  | draw d => exact (ClockRef.ofDraw.inj heq).2
  | animation m =>
    obtain rfl := List.mem_singleton.mp hclock
    obtain rfl := List.mem_singleton.mp hclock'
    rfl

/-- A clock is started if it runs and no trigger drives it. -/
theorem mem_starts_iff (hf : c.functions.functions[i]? = some f) (hclock : clock ∈ f.clocks) :
    f.clockRef clock.kind ∈ c.startup.starts ↔
      clock.isActive = true ∧ c.isTarget i clock.kind = false := by
  change _ ∈ c.functions.functions.zipIdx.flatMap c.startsOf ↔ _
  rw [List.mem_flatMap]
  constructor
  · rintro ⟨⟨g, j⟩, hg, hmem⟩
    obtain ⟨clock', hclock', heq⟩ := List.mem_map.mp hmem
    obtain ⟨hclock', hstarted⟩ := List.mem_filter.mp hclock'
    obtain ⟨rfl, rfl⟩ :=
      clock_unique hb (List.mk_mem_zipIdx_iff_getElem?.mp hg) hclock' hf hclock heq
    simpa using hstarted
  · rintro ⟨hactive, htarget⟩
    refine ⟨(f, i), List.mk_mem_zipIdx_iff_getElem?.mpr hf, List.mem_map.mpr ⟨clock, ?_, rfl⟩⟩
    exact List.mem_filter.mpr ⟨hclock, by simp [hactive, htarget]⟩

omit hb in
/-- A clock of a draw function that is in use is declared. -/
theorem mem_declaredRefs {d : DrawFunction} (hd : c.functions.functions[i]? = some (.draw d))
    (hclock : clock ∈ d.clocks) (huse : c.InUse i clock) :
    .ofDraw d.header.name clock.kind ∈ c.declaredRefs := by
  refine List.mem_map.mpr ⟨{ function := d.header.name, clock }, ?_, rfl⟩
  refine List.mem_flatMap.mpr ⟨(i, d), FunctionTable.mem_draws_iff.mpr hd, ?_⟩
  refine List.mem_map.mpr ⟨clock, ?_, rfl⟩
  refine List.mem_filter.mpr ⟨hclock, ?_⟩
  rw [Bool.or_eq_true, Bool.or_eq_true, or_assoc]
  exact huse

/-- The path of an animation function is declared once. -/
theorem declares_path {m : MotionFunction} (hm : c.functions.functions[i]? = some (.animation m)) :
    c.Declares (c.outlineScript art) (.ofPath m.header.name) := by
  have hmem := FunctionTable.mem_animations_iff.mpr hm
  refine ⟨m, List.mem_of_getElem? hm, rfl, List.mem_map_of_mem hmem, ?_⟩
  -- the clock of a path is written behind the name of the path
  have hnames : (c.outlineScript art).pathNames.map (· ++ ".pathClock") =
      c.pathRefs.map ClockRef.text := by
    simp [Script.pathNames, outlineScript, pathObject, pathRefs, ClockRef.text]
  refine List.count_eq_one_of_mem (List.Nodup.of_map (· ++ ".pathClock") ?_) ?_
  · rw [hnames]
    exact nodup_texts hb pathRefs_sublist
  · exact List.mem_map.mpr ⟨c.pathObject m, List.mem_map_of_mem hmem, rfl⟩

/-- A clock that is in use is declared once. -/
theorem declares_of_inUse (hf : c.functions.functions[i]? = some f) (hclock : clock ∈ f.clocks)
    (huse : c.InUse i clock) : c.Declares (c.outlineScript art) (f.clockRef clock.kind) := by
  cases f with
  | animation m => exact declares_path hb hf
  | draw d =>
    have hmem := mem_declaredRefs hf hclock huse
    have hcount := count_text hb declaredRefs_sublist (declaredRefs_sublist.subset hmem)
    rw [if_pos hmem, declaredRefs, List.map_map] at hcount
    exact hcount

/-- A function has a clock of each kind that it owns. -/
theorem exists_clock (hf : c.functions.functions[i]? = some f) {kind : ClockKind}
    (howns : f.owns kind = true) : ∃ clock ∈ f.clocks, clock.kind = kind := by
  rw [ArtFunction.owns_iff, ← hb.clocks f (List.mem_of_getElem? hf)] at howns
  exact List.mem_map.mp howns

/-- A wiring connects clocks that are declared. -/
theorem declares_wiring {w : Wiring} (hw : w ∈ c.startup.wirings) :
    c.Declares (c.outlineScript art) w.source ∧ c.Declares (c.outlineScript art) w.target := by
  obtain ⟨⟨i, t, j⟩, htrigger, hw⟩ := List.mem_filterMap.mp hw
  have htarget : c.isTarget i t.target = true :=
    List.any_eq_true.mpr ⟨(i, t, j), htrigger, by simp⟩
  have hsource : c.isSource j t.sourceClock = true :=
    List.any_eq_true.mpr ⟨(i, t, j), htrigger, by simp⟩
  obtain ⟨f, hf, ht, hbound⟩ := mem_resolvedTriggers_iff.mp htrigger
  have hmem := List.mem_of_getElem? hf
  obtain ⟨g, hg, howns⟩ := hb.sources f hmem t ht j hbound
  -- both functions own the clocks that the trigger names, and a wired clock is in use
  obtain ⟨driven, hdriven, hkind⟩ := exists_clock hb hf (hb.targets f hmem t ht)
  obtain ⟨heard, hheard, hkind'⟩ := exists_clock hb hg howns
  simp only [wiring?, hf, hg, Option.bind_eq_bind, Option.bind_some, Option.pure_def,
    Option.some.injEq] at hw
  subst hw
  rw [← hkind] at htarget ⊢
  rw [← hkind'] at hsource ⊢
  exact ⟨declares_of_inUse hb hg hheard (Or.inr (Or.inr hsource)),
    declares_of_inUse hb hf hdriven (Or.inr (Or.inl htarget))⟩

/-- A clock that is started is declared. -/
theorem declares_start {ref : ClockRef} (href : ref ∈ c.startup.starts) :
    c.Declares (c.outlineScript art) ref := by
  obtain ⟨⟨f, i⟩, hf, hmem⟩ := List.mem_flatMap.mp href
  obtain ⟨clock, hclock, rfl⟩ := List.mem_map.mp hmem
  obtain ⟨hclock, hstarted⟩ := List.mem_filter.mp hclock
  rw [Bool.and_eq_true] at hstarted
  exact declares_of_inUse hb (List.mk_mem_zipIdx_iff_getElem?.mp hf) hclock (Or.inl hstarted.1)

end Bound

/-- A frame refers to the path that a function follows, and to the clocks that change the
context. -/
theorem filterMap_body (marks : Bool) (call : FrameCall) :
    (call.body marks).filterMap FrameStmt.clockRef? =
      call.approach.body.filterMap FrameStmt.clockRef? ++
        call.clocks.map (.ofDraw call.function) := by
  have hclocks : (call.clocks.map (FrameStmt.applyClock call.function)).filterMap
      FrameStmt.clockRef? = call.clocks.map (.ofDraw call.function) := by
    rw [List.filterMap_map]
    exact congrFun (List.filterMap_eq_map (f := ClockRef.ofDraw call.function)) _
  have hmarks : (if marks && call.originSet then FrameCall.markOrigin else []).filterMap
      FrameStmt.clockRef? = [] := by
    split <;> rfl
  -- what stands around the approach and the clocks refers to nothing
  have hinner : (call.inner marks).filterMap FrameStmt.clockRef? =
      call.approach.body.filterMap FrameStmt.clockRef? ++
        call.clocks.map (.ofDraw call.function) := by
    rw [FrameCall.inner, List.filterMap_append, List.filterMap_append, List.filterMap_append,
      hclocks, hmarks]
    simp [FrameStmt.clockRef?]
  unfold FrameCall.body
  split
  · rw [List.cons_append, List.filterMap_cons, List.filterMap_append, hinner]
    simp [FrameStmt.clockRef?]
  · exact hinner

/-- The clocks of a draw function that a frame reads are declared, and so is the path that the
function follows. -/
theorem declares_frame (hb : c.functions.Bound) {marks : Bool} {d : DrawFunction}
    (hd : c.functions.functions[i]? = some (.draw d)) {ref : ClockRef}
    (href : ref ∈ ((c.frameCall d).body marks).filterMap FrameStmt.clockRef?) :
    c.Declares (c.outlineScript art) ref := by
  rw [filterMap_body, List.mem_append] at href
  -- a frame reads the path that is followed, and the clocks of the function
  rcases href with hpath | hclock
  · -- a function follows an animation function only
    have happroach : (c.frameCall d).approach = c.approach d := rfl
    rw [happroach] at hpath
    unfold approach at hpath
    split at hpath
    next g hguide =>
      obtain ⟨j, hj, hg⟩ := Option.bind_eq_some_iff.mp hguide
      obtain ⟨m, hm⟩ := hb.guides _ (List.mem_of_getElem? hd) j hj
      obtain rfl := Option.some.inj (hg.symm.trans hm)
      have href : ref = .ofPath (ArtFunction.animation m).name := by
        cases horientation : d.orientation <;>
          simpa [Approach.body, horientation, FrameStmt.clockRef?] using hpath
      rw [href]
      exact declares_path hb hm
    next =>
      split at hpath <;> simp [Approach.body, FrameStmt.clockRef?] at hpath
  · obtain ⟨kind, hkind, rfl⟩ := List.mem_map.mp hclock
    obtain ⟨clock, hactive, rfl⟩ := List.mem_map.mp hkind
    obtain ⟨hclock, hactive⟩ := List.mem_filter.mp hactive
    exact declares_of_inUse hb hd hclock (Or.inl hactive)

/-- The clocks are wired and started if anything can move. -/
theorem startup_outlineScript (c : Compiled) (art : Artwork) :
    (c.outlineScript art).wirings = (if c.animated then c.startup.wirings else []) ∧
      (c.outlineScript art).starts = (if c.animated then c.startup.starts else []) := by
  unfold Script.wirings Script.starts outlineScript
  cases c.animated <;> exact ⟨rfl, rfl⟩

/-- All that a script refers to is declared. -/
theorem declares_clockRefs (hb : c.functions.Bound) {o : EmitOptions} {ref : ClockRef}
    (href : ref ∈ (c.outlineScript art).clockRefs o) : c.Declares (c.outlineScript art) ref := by
  obtain ⟨hwirings, hstarts⟩ := c.startup_outlineScript art
  rw [Script.clockRefs, hwirings, hstarts, List.mem_append, List.mem_append] at href
  -- a reference is made in a frame, in a wiring, or at the start
  rcases href with (hframe | hwiring) | hstart
  · obtain ⟨stmt, hstmt, href⟩ := List.mem_filterMap.mp hframe
    obtain ⟨call, hcall, hstmt⟩ := List.mem_flatMap.mp hstmt
    obtain ⟨⟨i, d⟩, hd, rfl⟩ := List.mem_map.mp hcall
    exact declares_frame hb (FunctionTable.mem_draws_iff.mp hd)
      (List.mem_filterMap.mpr ⟨stmt, hstmt, href⟩)
  · obtain ⟨w, hw, href⟩ := List.mem_flatMap.mp hwiring
    obtain ⟨-, hw⟩ := List.mem_ite_nil_right.mp hw
    simp only [List.mem_cons, List.not_mem_nil, or_false] at href
    rcases href with rfl | rfl
    · exact (declares_wiring hb hw).1
    · exact (declares_wiring hb hw).2
  · exact declares_start hb (List.mem_ite_nil_right.mp hstart).2

/-- What is made of each element is all that is made, if something is made of every element. -/
theorem map_some_filterMap {α β : Type} {f : α → Option β} {l : List α}
    (h : ∀ a ∈ l, (f a).isSome = true) : (l.filterMap f).map some = l.map f := by
  induction l with
  | nil => rfl
  | cons a l ih =>
    obtain ⟨b, hb⟩ := Option.isSome_iff_exists.mp (h a List.mem_cons_self)
    rw [List.filterMap_cons_some hb, List.map_cons, List.map_cons, hb,
      ih fun a' ha' => h a' (List.mem_cons_of_mem _ ha')]

/-- Every trigger with a source is wired once. -/
theorem map_some_wirings (hb : c.functions.Bound) :
    c.startup.wirings.map some = c.resolvedTriggers.map c.wiring? := by
  refine map_some_filterMap fun entry hentry => ?_
  obtain ⟨i, t, j⟩ := entry
  obtain ⟨f, hf, ht, hsource⟩ := mem_resolvedTriggers_iff.mp hentry
  obtain ⟨g, hg, -⟩ := hb.sources f (List.mem_of_getElem? hf) t ht j hsource
  simp [wiring?, hf, hg]

section Animated

variable (hanimated : c.animated = c.functions.functions.any ArtFunction.needsClocks)

include hanimated

/-- A document with a function that needs clocks is animated. -/
theorem animated_of_needsClocks (hf : c.functions.functions[i]? = some f)
    (hneeds : f.needsClocks = true) : c.animated = true := by
  rw [hanimated]
  exact List.any_eq_true.mpr ⟨f, List.mem_of_getElem? hf, hneeds⟩

/-- A document with a clock that runs is animated. -/
theorem animated_of_active (hf : c.functions.functions[i]? = some f) (hclock : clock ∈ f.clocks)
    (hactive : clock.isActive = true) : c.animated = true := by
  refine animated_of_needsClocks hanimated hf ?_
  cases f with
  | animation m => rfl
  | draw d =>
    have hmem : clock ∈ d.activeClocks := List.mem_filter.mpr ⟨hclock, hactive⟩
    have hsome : d.activeClocks.isEmpty = false := by
      simpa using List.ne_nil_of_mem hmem
    simp [ArtFunction.needsClocks, DrawFunction.asksToMove, hsome]

/-- A document with a trigger that listens to some clock is animated. -/
theorem animated_of_resolvedTrigger {t : Trigger} (ht : (i, t, j) ∈ c.resolvedTriggers) :
    c.animated = true := by
  obtain ⟨f, hf, hmem, hsource⟩ := mem_resolvedTriggers_iff.mp ht
  refine animated_of_needsClocks hanimated hf ?_
  cases f with
  | animation m => rfl
  | draw d =>
    have hlistens : d.triggers.any (·.source.isSome) = true :=
      List.any_eq_true.mpr ⟨t, hmem, by rw [hsource]; rfl⟩
    simp [ArtFunction.needsClocks, hlistens]

/-- A clock that is declared can move. -/
theorem animated_of_clockObject {o : ClockObject}
    (ho : o ∈ c.functions.draws.flatMap c.clockObjects) : c.animated = true := by
  obtain ⟨⟨i, d⟩, hd, ho⟩ := List.mem_flatMap.mp ho
  obtain ⟨clock, hclock, rfl⟩ := List.mem_map.mp ho
  obtain ⟨hclock, huse⟩ := List.mem_filter.mp hclock
  rw [Bool.or_eq_true, Bool.or_eq_true, or_assoc] at huse
  rcases huse with hactive | htarget | hsource
  · exact animated_of_active hanimated (FunctionTable.mem_draws_iff.mp hd) hclock hactive
  · obtain ⟨⟨j, t, k⟩, ht, -⟩ := List.any_eq_true.mp htarget
    exact animated_of_resolvedTrigger hanimated ht
  · obtain ⟨⟨j, t, k⟩, ht, -⟩ := List.any_eq_true.mp hsource
    exact animated_of_resolvedTrigger hanimated ht

/-- What has a clock or a path, or connects clocks, is in a script that can move. -/
theorem animated_of_moving (art : Artwork)
    (h : (c.outlineScript art).clocks ≠ [] ∨ (c.outlineScript art).paths ≠ [] ∨
      (∃ f ∈ c.functions.functions, ∃ clock ∈ f.clocks, clock.isActive = true) ∨
      c.resolvedTriggers ≠ []) : c.animated = true := by
  rcases h with hclocks | hpaths | ⟨f, hf, clock, hclock, hactive⟩ | htriggers
  · obtain ⟨o, ho⟩ := List.exists_mem_of_ne_nil _ hclocks
    exact animated_of_clockObject hanimated ho
  · obtain ⟨o, ho⟩ := List.exists_mem_of_ne_nil _ hpaths
    obtain ⟨⟨i, m⟩, hm, -⟩ := List.mem_map.mp ho
    exact animated_of_needsClocks hanimated (FunctionTable.mem_animations_iff.mp hm) rfl
  · obtain ⟨i, hi⟩ := List.mem_iff_getElem?.mp hf
    exact animated_of_active hanimated hi hclock hactive
  · obtain ⟨⟨i, t, j⟩, ht⟩ := List.exists_mem_of_ne_nil _ htriggers
    exact animated_of_resolvedTrigger hanimated ht

/-- So every trigger with a source is wired once in a script, as there is none where nothing can
move. -/
theorem map_some_wirings_outlineScript (hb : c.functions.Bound) :
    (c.outlineScript art).wirings.map some = c.resolvedTriggers.map c.wiring? := by
  rw [(c.startup_outlineScript art).1]
  split
  · exact map_some_wirings hb
  next hstill =>
    have hnone : c.resolvedTriggers = [] := by
      by_contra hsome
      exact hstill (animated_of_moving hanimated art (Or.inr (Or.inr (Or.inr hsome))))
    rw [hnone]
    rfl

end Animated

end Compiled

end ArtCanvas
