import ArtCanvas.Proofs.Compile.Warnings

/-!
# Finding what functions refer to

Draw functions name the animation function that they follow, and triggers name the function whose
clock they listen to. Once all layers are gone through, these names are looked for in the table.
Where the names of functions are different, each reference comes to the one function that it means,
or to none; nothing else of a function changes, and looking again changes nothing at all.

* `FunctionTable.linked`: the table after both searches.
* `FunctionTable.MeansAnimation`, `FunctionTable.MeansSource`: what a reference means.
* `FunctionTable.Resolves`: a function with its references found, and all else as it was.
* `FunctionTable.linked_resolves`: the searches find what is meant, tell what they do not find, and
  are done once and for all.
-/

namespace ArtCanvas.FunctionTable

variable {t : FunctionTable}

/-- The table with the animation functions found, and then the sources of triggers. -/
def linked (t : FunctionTable) : FunctionTable := t.bindAnimations.2.bindTriggers.2

/-- An animation function of that name stands at the position. -/
def MeansAnimation (t : FunctionTable) (name : String) (i : Nat) : Prop :=
  ∃ m, t.functions[i]? = some (.animation m) ∧ m.header.name = name

/-- The function that the trigger names stands at the position, and has the clock. -/
def MeansSource (t : FunctionTable) (trigger : Trigger) (i : Nat) : Prop :=
  ∃ f, t.functions[i]? = some f ∧ f.name = trigger.sourceFunction ∧
    f.owns trigger.sourceClock = true

/-- What a draw function is bound to: the animation function that it names, if it names one. -/
structure ResolvesAnimation (t : FunctionTable) (d : DrawFunction) (animation : Option Nat) :
    Prop where
  named : ∀ name, d.animationName = some name →
    ∀ i, animation = some i ↔ t.MeansAnimation name i
  unnamed : d.animationName = none → animation = d.animation

/-- The second trigger is the first one with its source found. -/
structure ResolvesTrigger (t : FunctionTable) (trigger trigger' : Trigger) : Prop where
  source : ∀ i, trigger'.source = some i ↔ t.MeansSource trigger i
  frame : trigger' = { trigger with source := trigger'.source }

/-- The second function is the first one with its references found. -/
inductive Resolves (t : FunctionTable) : ArtFunction → ArtFunction → Prop
  | draw {d : DrawFunction} {animation : Option Nat} {triggers : List Trigger}
      (followed : t.ResolvesAnimation d animation)
      (heard : List.Forall₂ t.ResolvesTrigger d.triggers triggers) :
      Resolves t (.draw d) (.draw { d with animation, triggers })
  | animation {m : MotionFunction} {triggers : List Trigger}
      (heard : List.Forall₂ t.ResolvesTrigger m.triggers triggers) :
      Resolves t (.animation m) (.animation { m with triggers })

section Found

/-- Where names are different, an animation function is found by its name, and nothing else is. -/
theorem find?_animation_eq_some_iff (h : t.names.Nodup) {name : String} {i : Nat} :
    t.find? name (some .animation) = some i ↔ t.MeansAnimation name i := by
  rw [find?_eq_some_iff_of_kind h]
  constructor
  · rintro ⟨f, hget, hname, hkind⟩
    cases f with
    | draw d => simp [ArtFunction.kind] at hkind
    | animation m => exact ⟨m, hget, hname⟩
  · rintro ⟨m, hget, hname⟩
    exact ⟨.animation m, hget, hname, rfl⟩

/-- Where names are different, a trigger finds the function that it means, and no other one. -/
theorem triggerSource_eq_some_iff (h : t.names.Nodup) {trigger : Trigger} {i : Nat} :
    t.triggerSource trigger = some i ↔ t.MeansSource trigger i := by
  unfold triggerSource
  rw [Option.filter_eq_some_iff, find?_eq_some_iff h, Option.any_eq_true]
  constructor
  · rintro ⟨⟨f, hget, hname⟩, g, hget', howns⟩
    obtain rfl := Option.some.inj (hget.symm.trans hget')
    exact ⟨f, hget, hname, howns⟩
  · rintro ⟨f, hget, hname, howns⟩
    exact ⟨⟨f, hget, hname⟩, f, hget, howns⟩

/-- Binding gives a draw function what it names. -/
theorem resolvesAnimation_bindDraw (h : t.names.Nodup) (d : DrawFunction) :
    t.ResolvesAnimation d (t.bindDraw d).1.animation := by
  constructor
  case named =>
    intro name hname i
    rw [← find?_animation_eq_some_iff h]
    unfold bindDraw
    rw [hname]
    dsimp only
    cases t.find? name (some .animation) <;> rfl
  case unnamed =>
    intro hname
    unfold bindDraw
    rw [hname]

/-- A trigger finds the same source before and after the animation functions are bound. -/
theorem triggerSource_bindAnimations (t : FunctionTable) (trigger : Trigger) :
    t.bindAnimations.2.triggerSource trigger = t.triggerSource trigger :=
  triggerSource_of_map t.functions_bindAnimations fun f =>
    ⟨(t.bindAnimation_frame f).1, (t.bindAnimation_frame f).2.1⟩

/-- Binding resolves each function. -/
theorem resolves_bindFunction (h : t.names.Nodup) (f : ArtFunction) :
    t.Resolves f (t.bindFunction f) := by
  have heard : ∀ triggers : List Trigger,
      List.Forall₂ t.ResolvesTrigger triggers (triggers.map t.bindAnimations.2.bindTrigger) := by
    intro triggers
    refine List.forall₂_map_right_iff.mpr
      (List.forall₂_same.mpr fun trigger _ => ⟨fun i => ?_, rfl⟩)
    rw [← triggerSource_eq_some_iff h, ← t.triggerSource_bindAnimations]
    rfl
  cases f with
  | animation m => exact .animation (heard m.triggers)
  | draw d =>
    obtain ⟨animation, hbound⟩ := t.exists_bindDraw_eq d
    have hfollowed := resolvesAnimation_bindDraw h d
    rw [hbound] at hfollowed
    rw [bindFunction, bindAnimation_draw, hbound]
    exact .draw hfollowed (heard d.triggers)

end Found

section Again

/-- Linking changes each function by itself. -/
theorem functions_linked (t : FunctionTable) :
    t.linked.functions = t.functions.map t.bindFunction := t.functions_bind

/-- What is looked for again is found again. -/
theorem bindAnimation_bindFunction (t : FunctionTable) (f : ArtFunction) :
    (t.linked.bindAnimation (t.bindFunction f)).1 = t.bindFunction f := by
  cases f with
  | animation m => rfl
  | draw d =>
    rw [bindFunction, bindAnimation_draw]
    unfold bindDraw
    cases hname : d.animationName with
    | none => simp [ArtFunction.setTriggers, bindAnimation, bindDraw, hname]
    | some name =>
      have hfind : t.linked.find? name (some .animation) = t.find? name (some .animation) :=
        t.find?_bind name _
      cases hfound : t.find? name (some .animation) <;>
        simp [ArtFunction.setTriggers, bindAnimation, bindDraw, hfind, hfound]

/-- A trigger is bound only once. -/
theorem bindTrigger_bindTrigger (t : FunctionTable) (trigger : Trigger) :
    t.linked.bindTrigger (t.bindAnimations.2.bindTrigger trigger) =
      t.bindAnimations.2.bindTrigger trigger := by
  have hsource : t.linked.triggerSource trigger = t.triggerSource trigger :=
    triggerSource_of_map t.functions_linked fun f =>
      ⟨(t.bindFunction_frame f).1, (t.bindFunction_frame f).2.1⟩
  rw [bindTrigger, bindTrigger, t.triggerSource_bindAnimations, ← hsource]
  rfl

/-- Linked animation functions are found again. -/
theorem bindAnimations_linked (t : FunctionTable) : t.linked.bindAnimations.2 = t.linked := by
  have hfunctions : t.linked.bindAnimations.2.functions = t.linked.functions := by
    simp only [functions_bindAnimations, functions_linked, List.map_map]
    exact List.map_congr_left fun f _ => t.bindAnimation_bindFunction f
  exact congrArg₂ FunctionTable.mk hfunctions t.linked.hasDraw_bind.1

/-- So are linked sources. -/
theorem bindTriggers_linked (t : FunctionTable) : t.linked.bindTriggers.2 = t.linked := by
  have hfunctions : t.linked.bindTriggers.2.functions = t.linked.functions := by
    simp only [functions_bindTriggers, functions_linked, List.map_map]
    refine List.map_congr_left fun f _ => ?_
    have htriggers := (t.bindFunction_frame f).2.2.2.1
    -- the triggers of a bound function are bound, and stay as they are
    have hsame : (t.bindFunction f).triggers.map t.linked.bindTrigger =
        (t.bindFunction f).triggers := by
      rw [htriggers, List.map_map]
      exact List.map_congr_left fun trigger _ => t.bindTrigger_bindTrigger trigger
    rw [Function.comp_apply, hsame]
    cases t.bindFunction f <;> rfl
  exact congrArg₂ FunctionTable.mk hfunctions t.linked.hasDraw_bind.2

end Again

/-- Where the names of functions are different, each function keeps its place and all that it has
but its references. A draw function that names an animation function follows exactly that one, and
a trigger listens exactly to the function that it names, if that has the clock. There is one warning
for each reference to nothing, in the order of functions. Looking for all references once more
changes nothing and gives the same warnings. -/
theorem linked_resolves (h : t.names.Nodup) :
    List.Forall₂ t.Resolves t.functions t.linked.functions ∧ t.linked.hasDraw = t.hasDraw ∧
      t.bindAnimations.1 = t.linked.functions.filterMap ArtFunction.missingAnimation? ∧
      t.bindAnimations.2.bindTriggers.1 = t.linked.functions.flatMap ArtFunction.missingSources ∧
      t.linked.bindAnimations = (t.bindAnimations.1, t.linked) ∧
      t.linked.bindTriggers = (t.bindAnimations.2.bindTriggers.1, t.linked) := by
  obtain ⟨hanimations, hsources⟩ := t.warnings_bind
  -- the warnings of the second search are those that can be read off the same functions
  obtain ⟨hagain, hagain'⟩ := t.linked.warnings_bind
  rw [bindAnimations_linked, bindTriggers_linked] at hagain hagain'
  refine ⟨?_, t.bindAnimations.2.hasDraw_bind.2.trans t.hasDraw_bind.1, hanimations, hsources, ?_,
    ?_⟩
  · rw [functions_linked]
    exact List.forall₂_map_right_iff.mpr
      (List.forall₂_same.mpr fun f _ => resolves_bindFunction h f)
  · exact Prod.ext (hagain.trans hanimations.symm) t.bindAnimations_linked
  · exact Prod.ext (hagain'.trans hsources.symm) t.bindTriggers_linked

/-- A draw function between two others: it follows one of them and listens to both, once to a clock
that is not there; the last function is to follow one that does not exist. -/
def crossReferences : FunctionTable where
  functions := [
    .animation
      { header := { name := "line", requested := "line" }
        triggers := [⟨.path, .stop, "star", .rotate, .finished, none⟩] },
    .draw
      { header := { name := "star", requested := "star" }
        animationName := some "line"
        triggers := [⟨.rotate, .start, "line", .path, .finished, none⟩,
          ⟨.alpha, .start, "moon", .path, .finished, some 0⟩] },
    .draw
      { header := { name := "moon", requested := "star" }
        animationName := some "star"
        animation := some 0 }]
  hasDraw := true

/-- All references in `crossReferences` are found, apart from an animation function that is none and
a clock that is not there, which are told. -/
theorem linked_resolves_crossReferences :
    crossReferences.names.Nodup ∧
      List.Forall₂ crossReferences.Resolves crossReferences.functions
        crossReferences.linked.functions ∧
      crossReferences.linked.bindAnimations =
        ([.missingAnimation "moon" "star"], crossReferences.linked) ∧
      crossReferences.linked.bindTriggers =
        ([.missingSource "star" "moon" .path], crossReferences.linked) := by
  have hnames : crossReferences.names.Nodup := by decide
  obtain ⟨hresolves, -, -, -, hagain, hagain'⟩ := linked_resolves hnames
  refine ⟨hnames, hresolves, hagain.trans ?_, hagain'.trans ?_⟩
  · exact congrArg (·, _) (by decide)
  · exact congrArg (·, _) (by decide)

end ArtCanvas.FunctionTable
