import ArtCanvas.Proofs.Compile.Drawn
import ArtCanvas.Proofs.Function.Registration
import ArtCanvas.Proofs.Identifier.Name
import ArtCanvas.Proofs.Trigger.Text

/-!
# Functions of compiled documents

Functions are made of layers, changed by options, and in the end bound to each other by name. This
module says what holds of all functions of a compiled document, however they came about.

* `ArtFunction.Made`: what layers and options make, with a lemma for each way to change it.
* `ArtFunction.KeptByAssembly`: statements that layers and options keep.
* `FunctionTable.Bound`: the functions of a table refer to functions and clocks that are there.
* `Artwork.bound_of_compile`: the functions of a compiled document do.
-/

namespace ArtCanvas

namespace ArtFunction

/-- The kinds of the clocks that the function has. -/
def clockKinds : ArtFunction → List ClockKind
  | .draw _ => [.rotate, .scale, .alpha]
  | .animation _ => [.path]

/-- The position of the function that is followed. -/
def guide? : ArtFunction → Option Nat
  | .draw f => f.animation
  | .animation _ => none

/-- The function is as layers and options make it: its clocks are of the kinds that it owns, its
triggers drive clocks of its own, and it follows no function yet. -/
structure Made (f : ArtFunction) : Prop where
  name : Identifier.IsName f.name
  clocks : f.clocks.map Clock.kind = f.clockKinds
  targets : ∀ t ∈ f.triggers, f.owns t.target = true
  unbound : f.guide? = none

end ArtFunction

/-- A trigger drives the clock that it is read for, and listens to a function by its name. -/
theorem Trigger.of_parse? {target : ClockKind} {value : String} {t : Trigger}
    (h : Trigger.parse? target value = some t) :
    t.target = target ∧ Identifier.IsName t.sourceFunction := by
  obtain ⟨raw, hraw, hname, htarget, -⟩ := exists_of_parse? h
  rw [hname]
  exact ⟨htarget, Identifier.isName_ofText hraw⟩

/-- The trigger that an option gives to a draw function is read off the value, for a clock that is
not for progress along a path. -/
theorem DrawSetting.exists_target_of_parse {key value : String} {t : Trigger}
    (h : DrawSetting.parse key value = .setting (.trigger t)) :
    ∃ target, target ≠ .path ∧ Trigger.parse? target value = some t := by
  unfold parse at h
  split at h
  -- the last case is for the keys that name a clock; no other one makes a trigger
  case h_13 =>
    obtain ⟨name, rest, target, -, -, hpath, ⟨-, t', ht', heq⟩ | ⟨-, setting, -, heq⟩⟩ :=
      cases_of_parseClock h
    · cases heq
      exact ⟨target, hpath, ht'⟩
    · cases heq
  all_goals
    obtain ⟨a, -, heq⟩ := Reading.ofOption_map_eq_setting_iff.mp h
    cases heq

/-- The trigger that an option gives to an animation function is read off the value, for progress
along the path. -/
theorem MotionSetting.trigger_of_parse {key value : String} {t : Trigger}
    (h : MotionSetting.parse key value = .setting (.trigger t)) :
    Trigger.parse? .path value = some t := by
  -- what is set of the clock is no trigger
  have hclock : ∀ key : String, (ClockSetting.parse key value).map MotionSetting.clock ≠
      .setting (.trigger t) := by
    intro key h
    obtain ⟨setting, -, heq⟩ := Reading.map_eq_setting_iff.mp h
    cases heq
  unfold parse at h
  split at h
  · obtain ⟨kind, -, heq⟩ := Reading.ofOption_map_eq_setting_iff.mp h
    cases heq
  · obtain ⟨kind, -, heq⟩ := Reading.ofOption_map_eq_setting_iff.mp h
    cases heq
  · dsimp only at h
    split at h
    · obtain ⟨t', ht', heq⟩ := Reading.ofOption_map_eq_setting_iff.mp h
      cases heq
      exact ht'
    · exact absurd h (hclock _)

namespace DrawFunction

/-- A setting leaves the header, the kinds of the clocks and the animation function alone. -/
theorem apply_frame (byFunction : Bool) (s : DrawSetting) (f : DrawFunction) :
    (apply byFunction s f).header = f.header ∧
      (apply byFunction s f).clocks.map Clock.kind = f.clocks.map Clock.kind ∧
      (apply byFunction s f).animation = f.animation := by
  cases s with
  | origin anchor => cases anchor <;> exact ⟨rfl, rfl, rfl⟩
  | clock kind setting =>
    cases kind <;> exact ⟨rfl, by simp [apply, modifyClock, clocks, Clock.kind_apply], rfl⟩
  | _ => exact ⟨rfl, rfl, rfl⟩

/-- An option leaves the header of a draw function alone. -/
theorem header_set (byFunction : Bool) (key value : String) (f : DrawFunction)
    (layers : List Layer) : (f.set byFunction key value layers).2.1.header = f.header := by
  exact set_induction
    (P := fun state : DrawFunction × List Layer => state.1.header = f.header) rfl
    fun s _ => (apply_frame byFunction s f).1

/-- A setting adds the trigger that it is, if it is one. -/
theorem mem_triggers_apply {byFunction : Bool} {s : DrawSetting} {f : DrawFunction} {t : Trigger}
    (h : t ∈ (apply byFunction s f).triggers) : t ∈ f.triggers ∨ s = .trigger t := by
  cases s with
  | origin anchor => cases anchor <;> exact Or.inl h
  | clock kind setting => cases kind <;> exact Or.inl h
  | trigger trigger =>
    rcases List.mem_append.mp h with h | h
    · exact Or.inl h
    · exact Or.inr (congrArg _ (List.mem_singleton.mp h).symm)
  | _ => exact Or.inl h

end DrawFunction

/-- An option leaves the header of an animation function alone. -/
theorem MotionFunction.header_set (key value : String) (f : MotionFunction) :
    (f.set key value).2.header = f.header := by
  refine set_induction (P := fun g : MotionFunction => g.header = f.header) rfl
    fun s _ => ?_
  cases s <;> rfl

namespace ArtFunction.Made

/-- A draw function is still as it was made after an option. -/
theorem setDraw {f : DrawFunction} (h : (ArtFunction.draw f).Made) (byFunction : Bool)
    (key value : String) (layers : List Layer) :
    (ArtFunction.draw (f.set byFunction key value layers).2.1).Made := by
  refine DrawFunction.set_induction
    (P := fun state : DrawFunction × List Layer => (ArtFunction.draw state.1).Made) h
    fun s hparse => ?_
  obtain ⟨hheader, hclocks, hanimation⟩ := DrawFunction.apply_frame byFunction s f
  refine ⟨?_, hclocks.trans h.clocks, fun t ht => ?_, hanimation.trans h.unbound⟩
  · change Identifier.IsName (DrawFunction.apply byFunction s f).header.name
    rw [hheader]
    exact h.name
  · -- a trigger was there before, or is the option itself
    rcases DrawFunction.mem_triggers_apply ht with ht | rfl
    · exact h.targets t ht
    · obtain ⟨target, hne, hparse⟩ := DrawSetting.exists_target_of_parse hparse
      rw [(Trigger.of_parse? hparse).1]
      exact bne_iff_ne.mpr hne

/-- An animation function is still as it was made after an option. -/
theorem setAnimation {f : MotionFunction} (h : (ArtFunction.animation f).Made)
    (key value : String) : (ArtFunction.animation (f.set key value).2).Made := by
  refine MotionFunction.set_induction (P := fun g => (ArtFunction.animation g).Made) h
    fun s hparse => ?_
  cases s with
  | kind kind => exact h
  | clock setting =>
    have hkind := Clock.kind_apply setting f.pathClock
    have hclocks := (congrArg (fun kind => [kind]) hkind).trans h.clocks
    exact ⟨h.name, hclocks, h.targets, h.unbound⟩
  | trigger trigger =>
    refine ⟨h.name, h.clocks, fun t ht => ?_, h.unbound⟩
    rcases List.mem_append.mp ht with ht | ht
    · exact h.targets t ht
    · rw [List.mem_singleton.mp ht]
      exact beq_iff_eq.mpr (Trigger.of_parse? (MotionSetting.trigger_of_parse hparse)).1

end ArtFunction.Made

/-- A change that keeps the name of each function keeps the names of a table. -/
theorem FunctionTable.names_modify {t : FunctionTable} {i : Nat} {g : ArtFunction → ArtFunction}
    (hg : ∀ f, t.functions[i]? = some f → (g f).name = f.name) : (t.modify i g).names = t.names :=
  map_modify_of_eq hg

/-- The name of a function is read off the layer's name. -/
theorem LayerOrder.isName_base (name : String) : Identifier.IsName (parse name).base :=
  Identifier.isName_base name

/-- The statement holds of new functions, and layers and options keep it. -/
structure ArtFunction.KeptByAssembly [CurveLibrary] (P : ArtFunction → Prop) : Prop where
  newDraw : ∀ {header : FunctionHeader}, Identifier.IsName header.name →
    Identifier.IsName header.requested → P (.draw { header })
  newAnimation : ∀ {header : FunctionHeader}, Identifier.IsName header.name →
    Identifier.IsName header.requested → P (.animation { header })
  addLayer : ∀ {f : DrawFunction} (index : Nat) (layer : Layer), P (.draw f) →
    P (.draw (f.addLayer index layer))
  place : ∀ {f : MotionFunction} (index : Nat) (layer : Layer), P (.animation f) →
    P (.animation { f with
      layer := some index, art := layer.art
      header := { f.header with bounds := layer.bounds } })
  setPath : ∀ {f : MotionFunction} (path : Path), P (.animation f) → P (.animation (f.setPath path))
  setDraw : ∀ {f : DrawFunction} (byFunction : Bool) (key value : String) (layers : List Layer),
    P (.draw f) → P (.draw (f.set byFunction key value layers).2.1)
  setAnimation : ∀ {f : MotionFunction} (key value : String), P (.animation f) →
    P (.animation (f.set key value).2)

/-- What layers and options make is kept. -/
theorem ArtFunction.keptByAssembly_made [CurveLibrary] : KeptByAssembly Made where
  newDraw hname _ := ⟨hname, rfl, by simp [triggers], rfl⟩
  newAnimation hname _ := ⟨hname, rfl, by simp [triggers], rfl⟩
  addLayer _ _ h := ⟨h.name, h.clocks, h.targets, h.unbound⟩
  place _ _ h := ⟨h.name, h.clocks, h.targets, h.unbound⟩
  setPath _ h := ⟨h.name, h.clocks, h.targets, h.unbound⟩
  setDraw byFunction key value layers h := h.setDraw byFunction key value layers
  setAnimation key value h := h.setAnimation key value

namespace Assembly

section Kept

variable [CurveLibrary] {a : Assembly} {options : CompileOptions} {P : ArtFunction → Prop}
  (hP : ArtFunction.KeptByAssembly P) (h : ∀ f ∈ a.functions.functions, P f)

include hP h

/-- What is kept holds of all functions after a layer is given to one. -/
theorem forall_mem_addLayer (art : Artwork) {order : LayerOrder}
    (hbase : Identifier.IsName order.base) (index : Nat) (layer : Layer) :
    ∀ f ∈ (a.addLayer options art order index layer).2.functions.functions, P f := by
  unfold Assembly.addLayer
  cases order.kind with
  | draw =>
    -- the function that gets the layer is one of the table, or new
    have hadded : ∀ f ∈ (a.functions.addDraw order.base).2.functions, P f := by
      rcases a.functions.addDraw_cases order.base with ⟨_, _, _, -, -, -, hadd⟩ | hadd
      · rw [hadd]
        exact h
      · rw [hadd]
        exact FunctionTable.forall_mem_push h (hP.newDraw (hbase.unique _) hbase)
    refine FunctionTable.forall_mem_modify hadded (fun f hf => ?_) _
    cases f with
    | animation f => exact hf
    | draw f => exact hP.addLayer index layer hf
  | animation =>
    refine FunctionTable.forall_mem_modify
      (FunctionTable.forall_mem_push h (hP.newAnimation (hbase.unique _) hbase)) (fun f hf => ?_) _
    cases f with
    | draw f => exact hf
    | animation f =>
      -- the layer is placed first, and then gives the path if it has an outline
      have hplaced := hP.place index layer hf
      cases hpath : art.findPath options.maxDepth layer.art with
      | none => simpa [hpath] using hplaced
      | some path => simpa [hpath] using hP.setPath path hplaced

/-- What is kept holds of all functions after an option. -/
theorem forall_mem_setOption (id : Nat) (option : String × String) :
    ∀ f ∈ (a.setOption options id option).functions.functions, P f := by
  refine setOption_induction (motive := fun b => ∀ f ∈ b.functions.functions, P f) (fun _ => h)
    (fun f hf => ?_) fun f hf => ?_
  · have hset := hP.setDraw options.imagesByFunction option.1 option.2 a.layers
      (h _ (List.mem_iff_getElem?.mpr ⟨id, hf⟩))
    exact FunctionTable.forall_mem_modify h (fun _ _ => hset) id
  · have hset := hP.setAnimation option.1 option.2 (h _ (List.mem_iff_getElem?.mpr ⟨id, hf⟩))
    exact FunctionTable.forall_mem_modify h (fun _ _ => hset) id

end Kept

/-- The functions of an assembly are as layers and options make them, under different names. -/
structure Makes (a : Assembly) : Prop where
  made : ∀ f ∈ a.functions.functions, f.Made
  names : a.functions.names.Nodup

variable {a : Assembly}

/-- A layer makes or changes one function, and keeps names apart. -/
theorem Makes.addLayer [CurveLibrary] (h : a.Makes) (options : CompileOptions) (art : Artwork)
    {order : LayerOrder} (hbase : Identifier.IsName order.base) (index : Nat) (layer : Layer) :
    (a.addLayer options art order index layer).2.Makes where
  made := forall_mem_addLayer ArtFunction.keptByAssembly_made h.made art hbase index layer
  names := by
    unfold Assembly.addLayer
    cases order.kind with
    | draw =>
      have hnodup := FunctionTable.nodup_names_answer h.names (.draw order.base)
      refine Eq.mpr (congrArg List.Nodup (FunctionTable.names_modify fun f _ => ?_)) hnodup
      cases f <;> rfl
    | animation =>
      have hnodup := FunctionTable.nodup_names_answer h.names (.animation order.base)
      refine Eq.mpr (congrArg List.Nodup (FunctionTable.names_modify fun f _ => ?_)) hnodup
      cases f with
      | draw f => rfl
      | animation f => cases art.findPath options.maxDepth layer.art <;> rfl

/-- An option changes no name. -/
theorem names_setOption (a : Assembly) (options : CompileOptions) (id : Nat)
    (option : String × String) :
    (a.setOption options id option).functions.names = a.functions.names := by
  refine setOption_induction (motive := fun b => b.functions.names = a.functions.names)
    (fun _ => rfl) (fun f hf => ?_) fun f hf => ?_
  · refine FunctionTable.names_modify fun g hg => ?_
    obtain rfl := Option.some.inj (hf.symm.trans hg)
    exact congrArg FunctionHeader.name (f.header_set _ _ _ _)
  · refine FunctionTable.names_modify fun g hg => ?_
    obtain rfl := Option.some.inj (hf.symm.trans hg)
    exact congrArg FunctionHeader.name (f.header_set _ _)

/-- An option changes one function, and no name. -/
theorem Makes.setOption [CurveLibrary] (h : a.Makes) (options : CompileOptions) (id : Nat)
    (option : String × String) : (a.setOption options id option).Makes where
  made := forall_mem_setOption ArtFunction.keptByAssembly_made h.made id option
  names := by
    rw [names_setOption]
    exact h.names

/-- Going through all layers makes functions. -/
theorem makes_run [CurveLibrary] (options : CompileOptions) (art : Artwork) (layers : List Layer) :
    (run options art layers).Makes := by
  have hstart : ({ layers } : Assembly).Makes := ⟨by simp, List.nodup_nil⟩
  exact run_induction (motive := fun _ a => a.Makes) options art layers hstart
    (fun _ h => ⟨h.made, h.names⟩)
    (fun _ h => h.addLayer options art (LayerOrder.isName_base _) _ _)
    fun id option h => h.setOption options id option

end Assembly

namespace ArtFunction

/-- The clocks that a function owns are those of its kind. -/
theorem owns_iff {f : ArtFunction} {kind : ClockKind} :
    f.owns kind = true ↔ kind ∈ f.clockKinds := by
  cases f <;> cases kind <;> simp [owns, clockKinds]

/-- Functions of one kind have the same clocks. -/
theorem clockKinds_congr {f g : ArtFunction} (h : f.kind = g.kind) :
    f.clockKinds = g.clockKinds := by
  cases f <;> cases g <;> first | rfl | cases h

/-- Functions of one kind own the same clocks. -/
theorem owns_congr {f g : ArtFunction} (h : f.kind = g.kind) {kind : ClockKind} :
    f.owns kind = g.owns kind := by
  rw [Bool.eq_iff_iff, owns_iff, owns_iff, clockKinds_congr h]

end ArtFunction

namespace FunctionTable

/-- The functions of a table have different names, and refer to each other rightly: a trigger drives
a clock of its own function, and listens to a clock of the function that it is bound to; what a draw
function follows is an animation function. -/
structure Bound (t : FunctionTable) : Prop where
  names : t.names.Nodup
  name : ∀ f ∈ t.functions, Identifier.IsName f.name
  clocks : ∀ f ∈ t.functions, f.clocks.map Clock.kind = f.clockKinds
  targets : ∀ f ∈ t.functions, ∀ trigger ∈ f.triggers, f.owns trigger.target = true
  sources : ∀ f ∈ t.functions, ∀ trigger ∈ f.triggers, ∀ i, trigger.source = some i →
    ∃ g, t.functions[i]? = some g ∧ g.owns trigger.sourceClock = true
  guides : ∀ f ∈ t.functions, ∀ i, f.guide? = some i →
    ∃ g, t.functions[i]? = some (.animation g)

variable {t : FunctionTable}

/-- Binding a draw function gives a draw function. -/
theorem bindAnimation_draw (t : FunctionTable) (f : DrawFunction) :
    (t.bindAnimation (.draw f)).1 = .draw (t.bindDraw f).1 := rfl

/-- Finding an animation function changes no more of a function than what it follows. -/
theorem bindAnimation_frame (t : FunctionTable) (f : ArtFunction) :
    (t.bindAnimation f).1.kind = f.kind ∧ (t.bindAnimation f).1.name = f.name ∧
      (t.bindAnimation f).1.clocks = f.clocks ∧ (t.bindAnimation f).1.triggers = f.triggers := by
  cases f with
  | animation f => exact ⟨rfl, rfl, rfl, rfl⟩
  | draw f =>
    obtain ⟨animation, hbound⟩ := t.exists_bindDraw_eq f
    rw [bindAnimation_draw, hbound]
    exact ⟨rfl, rfl, rfl, rfl⟩

/-- What a draw function follows after that is an animation function. -/
theorem guide?_bindAnimation {f : ArtFunction} (h : f.guide? = none) {i : Nat}
    (hguide : (t.bindAnimation f).1.guide? = some i) :
    ∃ g, t.functions[i]? = some (.animation g) := by
  cases f with
  | animation f => cases hguide
  | draw f =>
    rw [bindAnimation_draw] at hguide
    unfold bindDraw at hguide
    split at hguide
    · exact absurd (h.symm.trans hguide) nofun
    next name _ =>
      split at hguide
      next j hfind =>
        -- only animation functions were looked for
        obtain rfl := Option.some.inj hguide
        obtain ⟨before, g, after, heq, rfl, hg, -⟩ := exists_of_lastIdx?_eq_some hfind
        cases g with
        | draw g => simp [ArtFunction.kind] at hg
        | animation g =>
          refine ⟨g, ?_⟩
          rw [heq, List.getElem?_append_right le_rfl, Nat.sub_self]
          rfl
      next => cases hguide

/-- The function at a position when it is bound: first to what it follows, and then its triggers. -/
def bindFunction (t : FunctionTable) (f : ArtFunction) : ArtFunction :=
  let bound := (t.bindAnimation f).1
  bound.setTriggers (f.triggers.map t.bindAnimations.2.bindTrigger)

/-- Binding changes each function by itself. -/
theorem functions_bind (t : FunctionTable) :
    (t.bindAnimations.2.bindTriggers).2.functions = t.functions.map t.bindFunction := by
  rw [functions_bindTriggers]
  conv_lhs => arg 2; rw [functions_bindAnimations]
  rw [List.map_map]
  refine List.map_congr_left fun f _ => ?_
  simp only [Function.comp_apply, bindFunction, (t.bindAnimation_frame f).2.2.2]

/-- Binding a function changes no more of it than what it refers to. -/
theorem bindFunction_frame (t : FunctionTable) (f : ArtFunction) :
    (t.bindFunction f).kind = f.kind ∧ (t.bindFunction f).name = f.name ∧
      (t.bindFunction f).clocks = f.clocks ∧
      (t.bindFunction f).triggers = f.triggers.map t.bindAnimations.2.bindTrigger ∧
      (t.bindFunction f).guide? = (t.bindAnimation f).1.guide? := by
  obtain ⟨hkind, hname, hclocks, -⟩ := t.bindAnimation_frame f
  rw [← hkind, ← hname, ← hclocks]
  unfold bindFunction
  cases (t.bindAnimation f).1 <;> exact ⟨rfl, rfl, rfl, rfl, rfl⟩

section Relabelled

variable {u : FunctionTable} {g : ArtFunction → ArtFunction}

/-- A table whose functions keep their kinds and names finds the same by a name. -/
theorem find?_of_map (hu : u.functions = t.functions.map g)
    (hg : ∀ f, (g f).kind = f.kind ∧ (g f).name = f.name) (name : String)
    (kind : Option FunctionKind) : u.find? name kind = t.find? name kind := by
  unfold find?
  rw [hu, lastIdx?_map]
  congr 1
  funext f
  rw [Function.comp_apply, (hg f).1, (hg f).2]

/-- A table whose functions keep their kinds and names finds the same source for a trigger. -/
theorem triggerSource_of_map (hu : u.functions = t.functions.map g)
    (hg : ∀ f, (g f).kind = f.kind ∧ (g f).name = f.name) {trigger : Trigger} :
    u.triggerSource trigger = t.triggerSource trigger := by
  unfold triggerSource
  rw [find?_of_map hu hg]
  congr 1
  funext i
  rw [hu, List.getElem?_map, Option.any_map]
  congr 1
  funext f
  exact ArtFunction.owns_congr (hg f).1

end Relabelled

/-- Binding functions leaves what is found by a name. -/
theorem find?_bind (t : FunctionTable) (name : String) (kind : Option FunctionKind) :
    t.bindAnimations.2.bindTriggers.2.find? name kind = t.find? name kind :=
  find?_of_map t.functions_bind
    (fun f => ⟨(t.bindFunction_frame f).1, (t.bindFunction_frame f).2.1⟩) name kind

/-- A draw function that follows nothing yet is bound to what is found by its animation name. -/
theorem animation_bindDraw {f : DrawFunction} (h : f.animation = none) :
    (t.bindDraw f).1.animation =
      f.animationName.bind fun name => t.find? name (some .animation) := by
  unfold bindDraw
  split
  next hnone => rw [h, hnone, Option.bind_none]
  next name hname =>
    rw [hname, Option.bind_some]
    split
    next i hfind => rw [hfind]
    next hfind => rw [hfind]

/-- What a trigger listens to is a clock that is there. -/
theorem exists_owns_of_triggerSource {trigger : Trigger} {i : Nat}
    (h : t.triggerSource trigger = some i) :
    ∃ g, t.functions[i]? = some g ∧ g.owns trigger.sourceClock = true := by
  obtain ⟨-, howns⟩ := Option.filter_eq_some_iff.mp h
  exact (Option.any_eq_true _ _).mp howns

/-- The triggers of a bound function drive clocks of its own. -/
theorem owns_target_bindFunction {f : ArtFunction} (h : f.Made) {trigger : Trigger}
    (htrigger : trigger ∈ (t.bindFunction f).triggers) :
    (t.bindFunction f).owns trigger.target = true := by
  obtain ⟨hkind, -, -, htriggers, -⟩ := t.bindFunction_frame f
  rw [htriggers] at htrigger
  obtain ⟨trigger₀, htrigger₀, rfl⟩ := List.mem_map.mp htrigger
  rw [ArtFunction.owns_congr hkind]
  exact h.targets trigger₀ htrigger₀

/-- What the triggers of a bound function listen to is a clock of a function that is made. -/
theorem exists_owns_sourceClock_bindFunction {f : ArtFunction} {trigger : Trigger}
    (htrigger : trigger ∈ (t.bindFunction f).triggers) {i : Nat}
    (hsource : trigger.source = some i) :
    ∃ g, t.functions[i]? = some g ∧ g.owns trigger.sourceClock = true := by
  rw [(t.bindFunction_frame f).2.2.2.1] at htrigger
  obtain ⟨trigger₀, -, rfl⟩ := List.mem_map.mp htrigger
  -- sources are looked for in between, after the animation functions are bound
  have hsource₀ : t.triggerSource trigger₀ = some i := by
    rw [← triggerSource_of_map t.functions_bindAnimations fun f =>
      ⟨(t.bindAnimation_frame f).1, (t.bindAnimation_frame f).2.1⟩]
    exact hsource
  exact exists_owns_of_triggerSource hsource₀

/-- Functions that are made and have different names refer to each other rightly once they are
bound. -/
theorem bound_bind (hmade : ∀ f ∈ t.functions, f.Made) (hnames : t.names.Nodup) :
    (t.bindAnimations.2.bindTriggers).2.Bound := by
  have hfunctions := t.functions_bind
  -- each function comes from one that was made, and keeps what does not refer to others
  have hmem : ∀ f ∈ (t.bindAnimations.2.bindTriggers).2.functions,
      ∃ f₀ ∈ t.functions, f = t.bindFunction f₀ := by
    intro f hf
    rw [hfunctions] at hf
    obtain ⟨f₀, hf₀, rfl⟩ := List.mem_map.mp hf
    exact ⟨f₀, hf₀, rfl⟩
  -- and it stands where that one stood
  have hbound : ∀ (i : Nat) (g : ArtFunction), t.functions[i]? = some g →
      (t.bindAnimations.2.bindTriggers).2.functions[i]? = some (t.bindFunction g) := by
    intro i g hg
    rw [hfunctions, List.getElem?_map, hg, Option.map_some]
  constructor
  case names =>
    have hkept : (t.bindAnimations.2.bindTriggers).2.names = t.names := by
      rw [names, names, hfunctions, List.map_map]
      exact List.map_congr_left fun f _ => (t.bindFunction_frame f).2.1
    rwa [hkept]
  case name =>
    intro f hf
    obtain ⟨f₀, hf₀, rfl⟩ := hmem f hf
    rw [(t.bindFunction_frame f₀).2.1]
    exact (hmade f₀ hf₀).name
  case clocks =>
    intro f hf
    obtain ⟨f₀, hf₀, rfl⟩ := hmem f hf
    obtain ⟨hkind, -, hclocks, -⟩ := t.bindFunction_frame f₀
    rw [hclocks, (hmade f₀ hf₀).clocks, ArtFunction.clockKinds_congr hkind]
  case targets =>
    intro f hf trigger htrigger
    obtain ⟨f₀, hf₀, rfl⟩ := hmem f hf
    exact owns_target_bindFunction (hmade f₀ hf₀) htrigger
  case sources =>
    intro f hf trigger htrigger i hsource
    obtain ⟨f₀, hf₀, rfl⟩ := hmem f hf
    obtain ⟨g, hg, howns⟩ := exists_owns_sourceClock_bindFunction htrigger hsource
    exact ⟨t.bindFunction g, hbound i g hg,
      (ArtFunction.owns_congr (t.bindFunction_frame g).1).trans howns⟩
  case guides =>
    intro f hf i hguide
    obtain ⟨f₀, hf₀, rfl⟩ := hmem f hf
    rw [(t.bindFunction_frame f₀).2.2.2.2] at hguide
    obtain ⟨g, hg⟩ := guide?_bindAnimation (hmade f₀ hf₀).unbound hguide
    exact ⟨_, hbound i (.animation g) hg⟩

section Kinds

variable {i : Nat}

/-- What is chosen from a list stands beside its position in the list. -/
theorem mem_filterMap_zipIdx_iff {α β : Type} {choose : α → Option β} {l : List α} {b : β} :
    (i, b) ∈ l.zipIdx.filterMap (fun (a, i) => (choose a).map fun b => (i, b)) ↔
      ∃ a, l[i]? = some a ∧ choose a = some b := by
  rw [List.mem_filterMap]
  constructor
  · rintro ⟨⟨a, j⟩, ha, heq⟩
    obtain ⟨b', hb, heq⟩ := Option.map_eq_some_iff.mp heq
    cases heq
    exact ⟨a, List.mk_mem_zipIdx_iff_getElem?.mp ha, hb⟩
  · rintro ⟨a, ha, hb⟩
    exact ⟨(a, i), List.mk_mem_zipIdx_iff_getElem?.mpr ha, congrArg (Option.map _) hb⟩

/-- The draw functions of a table, with their positions. -/
theorem mem_draws_iff {d : DrawFunction} :
    (i, d) ∈ t.draws ↔ t.functions[i]? = some (.draw d) := by
  rw [draws, mem_filterMap_zipIdx_iff]
  constructor
  · rintro ⟨f, hf, hd⟩
    cases f with
    | animation f => cases hd
    | draw f =>
      cases hd
      exact hf
  · exact fun hf => ⟨_, hf, rfl⟩

/-- The animation functions of a table, with their positions. -/
theorem mem_animations_iff {m : MotionFunction} :
    (i, m) ∈ t.animations ↔ t.functions[i]? = some (.animation m) := by
  rw [animations, mem_filterMap_zipIdx_iff]
  constructor
  · rintro ⟨f, hf, hm⟩
    cases f with
    | draw f => cases hm
    | animation f =>
      cases hm
      exact hf
  · exact fun hf => ⟨_, hf, rfl⟩

/-- Without the positions, what is chosen from a list is left. -/
theorem map_snd_filterMap_zipIdx {α β : Type} (choose : α → Option β) (l : List α) :
    (l.zipIdx.filterMap fun (a, i) => (choose a).map fun b => (i, b)).map Prod.snd =
      l.filterMap choose := by
  conv_rhs => rw [← List.zipIdx_map_fst 0 l, List.filterMap_map]
  rw [List.map_filterMap]
  refine List.filterMap_congr fun entry _ => ?_
  rw [Option.map_map]
  exact Option.map_id'

/-- The draw functions and the animation functions are all functions. -/
theorem perm_names (t : FunctionTable) :
    (t.draws.map (fun entry => entry.2.header.name) ++
      t.animations.map fun entry => entry.2.header.name).Perm t.names := by
  have hdraws : t.draws.map (fun entry => entry.2.header.name) =
      (t.functions.filterMap ArtFunction.asDraw?).map fun f => f.header.name := by
    rw [← map_snd_filterMap_zipIdx, List.map_map]
    rfl
  have hanimations : t.animations.map (fun entry => entry.2.header.name) =
      (t.functions.filterMap ArtFunction.asAnimation?).map fun f => f.header.name := by
    rw [← map_snd_filterMap_zipIdx, List.map_map]
    rfl
  rw [hdraws, hanimations, names]
  -- each function goes into one of the two lists
  generalize t.functions = fs
  induction fs with
  | nil => exact .nil
  | cons f fs ih =>
    cases f with
    | draw f => exact ih.cons _
    | animation f => exact List.perm_middle.trans (ih.cons _)

end Kinds

end FunctionTable

/-- The functions of a compiled document refer to each other rightly. -/
theorem Artwork.bound_of_compile [CurveLibrary] {art : Artwork} {options : CompileOptions}
    {c : Compiled} (hc : art.compile options = .ok c) : c.functions.Bound := by
  have hmakes := Assembly.makes_run options art (art.scan options.maxDepth).1
  rw [(comesFrom_of_compile hc).functions]
  exact FunctionTable.bound_bind hmakes.made hmakes.names

/-- A draw function of a compiled document follows what is found there by its animation name. -/
theorem Artwork.animation_of_compile [CurveLibrary] {art : Artwork} {options : CompileOptions}
    {c : Compiled}
    (hc : art.compile options = .ok c) {f : DrawFunction} (hf : .draw f ∈ c.functions.functions) :
    f.animation = f.animationName.bind fun name => c.functions.find? name (some .animation) := by
  have hmade := (Assembly.makes_run options art (art.scan options.maxDepth).1).made
  rw [(comesFrom_of_compile hc).functions] at hf ⊢
  generalize (Assembly.run options art (art.scan options.maxDepth).1).functions = t at hf hmade ⊢
  simp only [FunctionTable.find?_bind]
  -- back to the function before it was bound
  rw [FunctionTable.functions_bind] at hf
  obtain ⟨g, hg, heq⟩ := List.mem_map.mp hf
  cases g with
  | animation g => cases heq
  | draw g =>
    obtain ⟨animation, hbound⟩ := t.exists_bindDraw_eq g
    have hname := congrArg DrawFunction.animationName hbound
    have hunbound : g.animation = none := (hmade _ hg).unbound
    have hfollows := t.animation_bindDraw hunbound
    rw [← hname] at hfollows
    cases heq
    exact hfollows

end ArtCanvas
