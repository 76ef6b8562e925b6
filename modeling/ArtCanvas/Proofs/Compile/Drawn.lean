import ArtCanvas.Compile.Compiled
import ArtCanvas.Proofs.Function.Passes
import ArtCanvas.Proofs.Setting.Reading
import Mathlib.Data.List.Basic
import Mathlib.Data.List.Induction

/-!
# What draw functions need

A draw function needs what its layers need. Layers join one after the other, and between them
options change functions and layers in many ways. None of these changes touches the art.

* `Layer.uncut`: a layer apart from the mark that cuts the page, the only part that options change.
* `Layer.featuresAt`: what the layers at some positions need together.
* `Assembly.run_induction`: induction over the layers that an assembly goes through.
* `Assembly.Draws`: the invariant of an assembly, with a lemma for each step.
* `Artwork.comesFrom_of_compile`: where the parts of a compiled document come from.
* `Artwork.drawn_of_compile`: what of the scan is left in a compiled document.
-/

namespace ArtCanvas

/-- Where the parts of a compiled document come from: a scan, the assembly of the layers that it
finds, and what their functions refer to. -/
structure Compiled.ComesFrom [CurveLibrary] (c : Compiled) (art : Artwork)
    (options : CompileOptions) : Prop where
  layers : c.layers = (Assembly.run options art (art.scan options.maxDepth).1).layers
  functions : c.functions = (Assembly.run options art
    (art.scan options.maxDepth).1).functions.bindAnimations.2.bindTriggers.2
  patterns : c.patterns = (art.scan options.maxDepth).2.patterns.nameSymbols c.functions.names
  canvases : c.canvases =
    Compiled.mainCanvas c.bounds :: c.patterns.tiles.filterMap Pattern.hiddenCanvas?
  animated : c.animated = c.functions.functions.any ArtFunction.needsClocks
  warnings : c.warnings = (art.scan options.maxDepth).2.warnings ++
    (Assembly.run options art (art.scan options.maxDepth).1).warnings ++
    (Assembly.run options art (art.scan options.maxDepth).1).functions.bindAnimations.1 ++
    (Assembly.run options art
      (art.scan options.maxDepth).1).functions.bindAnimations.2.bindTriggers.1 ++
    Compiled.cropWarnings c.layers

/-- All that a successful compile does. -/
theorem Artwork.comesFrom_of_compile [CurveLibrary] {art : Artwork} {options : CompileOptions}
    {c : Compiled} (hc : art.compile options = .ok c) : c.ComesFrom art options := by
  -- what both passes give is only named, so that none of it is computed
  rcases hanimations : (Assembly.run options art
    (art.scan options.maxDepth).1).functions.bindAnimations with ⟨missing, bound⟩
  rcases hsources : bound.bindTriggers with ⟨missing', bound'⟩
  simp only [compile, hanimations, hsources] at hc
  split at hc
  · cases hc
  · cases hc
    constructor <;> simp only [hanimations, hsources]

namespace Layer

/-- The layer apart from the mark that cuts the page. -/
def uncut (l : Layer) : Layer := { l with crop := false }

/-- What the layers at some positions need together. A position without a layer needs nothing. -/
def featuresAt (layers : List Layer) (positions : List Nat) : Features :=
  (positions.map fun i => (layers[i]?.map Layer.features).getD {}).foldr Features.merge {}

/-- One more layer adds its needs. -/
theorem featuresAt_concat (layers : List Layer) (positions : List Nat) (i : Nat) :
    featuresAt layers (positions ++ [i]) =
      (featuresAt layers positions).merge ((layers[i]?.map Layer.features).getD {}) := by
  induction positions with
  | nil => simp [featuresAt]
  | cons j positions ih =>
    simp only [featuresAt, List.cons_append, List.map_cons, List.foldr_cons] at ih ⊢
    rw [ih, Features.merge_assoc]

end Layer

/-- A change to one element that a function does not see is not seen in the list. -/
theorem map_modify_of_eq {α β : Type} {f : α → β} {g : α → α} {l : List α} {i : Nat}
    (h : ∀ a, l[i]? = some a → f (g a) = f a) : (l.modify i g).map f = l.map f := by
  refine List.ext_getElem? fun j => ?_
  rw [List.getElem?_map, List.getElem?_map, List.getElem?_modify]
  cases hj : l[j]? with
  | none => rfl
  | some a =>
    by_cases hij : i = j
    · subst hij
      simp [h a hj]
    · simp [hij]

/-- What a step for each element of a list does is shown one element after the other. -/
theorem foldl_zipIdx_induction {α β : Type} {motive : Nat → β → Prop} {f : β → α × Nat → β}
    (l : List α) (b : β) (start : motive 0 b)
    (step : ∀ i a b, l[i]? = some a → motive i b → motive (i + 1) (f b (a, i))) :
    motive l.length (l.zipIdx.foldl f b) := by
  induction l using List.reverseRecOn with
  | nil => exact start
  | append_singleton l a ih =>
    rw [List.zipIdx_append, List.foldl_append, List.length_append, Nat.zero_add]
    change motive (l.length + 1) (f _ (a, l.length))
    refine step l.length a _ (by simp) (ih fun i a' b hget => step i a' b ?_)
    rw [List.getElem?_append_left (List.getElem?_eq_some_iff.mp hget).1, hget]

/-- What a test shows of a result that is no failure. -/
theorem exists_ok_of_any {ε α : Type} {x : Except ε α} {p : α → Bool}
    (h : x.toOption.any p = true) : ∃ a, x = .ok a ∧ p a = true := by
  cases x with
  | error e => cases h
  | ok a => exact ⟨a, rfl, h⟩

/-- A draw function needs what its layers need. -/
def ArtFunction.Draws (layers : List Layer) : ArtFunction → Prop
  | .draw f => f.features = Layer.featuresAt layers f.layers
  | .animation _ => True

theorem ArtFunction.draws_animation (layers : List Layer) (f : MotionFunction) :
    (ArtFunction.animation f).Draws layers := trivial

namespace FunctionTable

variable {P : ArtFunction → Prop} {t : FunctionTable}

/-- What holds of all functions, and is kept by a change, holds of all functions after the change.
-/
theorem forall_mem_modify (h : ∀ f ∈ t.functions, P f) {g : ArtFunction → ArtFunction}
    (hg : ∀ f, P f → P (g f)) (i : Nat) : ∀ f ∈ (t.modify i g).functions, P f := by
  intro f hf
  obtain ⟨j, hj⟩ := List.mem_iff_getElem?.mp hf
  rw [modify, List.getElem?_modify] at hj
  obtain ⟨f', hf', rfl⟩ := Option.map_eq_some_iff.mp hj
  have hP := h f' (List.mem_iff_getElem?.mpr ⟨j, hf'⟩)
  split
  · exact hg f' hP
  · exact hP

/-- What holds of a new function and all others holds of the longer table. -/
theorem forall_mem_push (h : ∀ f ∈ t.functions, P f) {f : ArtFunction} (hf : P f) :
    ∀ f' ∈ (t.push f).2.functions, P f' := by
  intro f' hf'
  rcases List.mem_append.mp hf' with hf' | hf'
  · exact h f' hf'
  · rw [List.mem_singleton.mp hf']
    exact hf

/-- What holds of all functions, and of a new draw function without layers, holds after a layer asks
for a draw function. -/
theorem forall_mem_addDraw (h : ∀ f ∈ t.functions, P f) (hnew : ∀ header, P (.draw { header }))
    (requested : String) : ∀ f ∈ (t.addDraw requested).2.functions, P f := by
  unfold addDraw
  dsimp only
  split
  · exact h
  · exact forall_mem_push h (hnew _)

end FunctionTable

/-- An option changes nothing of the art of a draw function, and of the layers no more than the mark
that cuts the page. -/
theorem DrawFunction.set_frame (byFunction : Bool) (key value : String) (f : DrawFunction)
    (layers : List Layer) :
    (f.set byFunction key value layers).2.1.layers = f.layers ∧
      (f.set byFunction key value layers).2.1.features = f.features ∧
      (f.set byFunction key value layers).2.2.map Layer.uncut = layers.map Layer.uncut := by
  have happly : ∀ s, (applyToLayers s f layers).map Layer.uncut = layers.map Layer.uncut := by
    intro s
    unfold applyToLayers
    split
    · exact map_modify_of_eq fun _ _ => rfl
    · rfl
  exact set_induction
    (P := fun state : DrawFunction × List Layer => state.1.layers = f.layers ∧
      state.1.features = f.features ∧ state.2.map Layer.uncut = layers.map Layer.uncut)
    ⟨rfl, rfl, rfl⟩
    fun s _ => ⟨layers_apply byFunction s f, features_apply byFunction s f, happly s⟩

namespace Assembly

/-- Induction over the layers that an assembly goes through: a statement about the assembly and the
number of layers holds after all of them if it holds before the first one, and if it is kept by a
warning, by a layer that is given to its function, and by an option. -/
theorem run_induction [CurveLibrary] {motive : Nat → Assembly → Prop} (options : CompileOptions)
    (art : Artwork) (layers : List Layer) (start : motive 0 { layers })
    (warn : ∀ {n a} ws, motive n a → motive n (a.warn ws))
    (add : ∀ {n a layer}, layers[n]? = some layer → motive n a →
      motive (n + 1) (a.addLayer options art (LayerOrder.parse layer.name) n layer).2)
    (option : ∀ {n a} id entry, motive n a → motive n (a.setOption options id entry)) :
    motive layers.length (run options art layers) := by
  refine foldl_zipIdx_induction layers ({ layers } : Assembly) start fun n layer a hlayer h => ?_
  unfold takeLayer
  dsimp only
  -- the warning, the layer and then the options, one after the other
  exact List.foldlRecOn (motive := motive (n + 1)) _ _ (add hlayer (warn _ h))
    fun _ ha entry _ => option _ entry ha

/-- What an option does: it changes its function, a draw function together with the layers, and adds
the warning about its outcome. Nothing happens if there is no such function. -/
theorem setOption_induction {motive : Assembly → Prop} {options : CompileOptions} {a : Assembly}
    {id : Nat} {option : String × String}
    (missing : a.functions.functions[id]? = none → motive a)
    (draw : ∀ f, a.functions.functions[id]? = some (.draw f) → motive
      { layers := (f.set options.imagesByFunction option.1 option.2 a.layers).2.2
        functions := a.functions.modify id fun _ =>
          .draw (f.set options.imagesByFunction option.1 option.2 a.layers).2.1
        warnings := a.warnings ++
          ((f.set options.imagesByFunction option.1 option.2 a.layers).1.warning? f.header.name
            option.1 option.2).toList })
    (animation : ∀ f, a.functions.functions[id]? = some (.animation f) → motive
      { a with
        functions := a.functions.modify id fun _ => .animation (f.set option.1 option.2).2
        warnings := a.warnings ++
          ((f.set option.1 option.2).1.warning? f.header.name option.1 option.2).toList }) :
    motive (a.setOption options id option) := by
  unfold setOption
  dsimp only
  split
  next hf => exact missing hf
  next f hf => exact draw f hf
  next f hf => exact animation f hf

/-- The functions of an assembly draw the scanned layers, which are the same but for the mark that
cuts the page. -/
structure Draws (a : Assembly) (scanned : List Layer) : Prop where
  layers : a.layers.map Layer.uncut = scanned.map Layer.uncut
  functions : ∀ f ∈ a.functions.functions, f.Draws scanned

variable {a : Assembly} {scanned : List Layer} {options : CompileOptions}

/-- A layer that joins a draw function brings what it needs. -/
theorem Draws.addDraw (h : a.Draws scanned) (base : String) {index : Nat} {layer : Layer}
    (hlayer : scanned[index]? = some layer) : (a.addDraw base index layer).2.Draws scanned where
  layers := h.layers
  functions := by
    refine FunctionTable.forall_mem_modify
      (FunctionTable.forall_mem_addDraw h.functions (fun _ => rfl) base) (fun f hf => ?_) _
    cases f with
    | animation f => trivial
    | draw f =>
      -- its layers and its features grow together
      change f.features.merge layer.features = Layer.featuresAt scanned (f.layers ++ [index])
      rw [Layer.featuresAt_concat, hlayer, show f.features = _ from hf]
      rfl

/-- An animation function draws nothing. -/
theorem Draws.addAnimation [CurveLibrary] (h : a.Draws scanned) (art : Artwork) (base : String)
    (index : Nat)
    (layer : Layer) : (a.addAnimation options art base index layer).2.Draws scanned where
  layers := h.layers
  functions := by
    refine FunctionTable.forall_mem_modify
      (FunctionTable.forall_mem_push h.functions (ArtFunction.draws_animation _ _))
      (fun f hf => ?_) _
    cases f with
    | animation f => trivial
    | draw f => exact hf

/-- An option leaves the art alone. -/
theorem Draws.setOption (h : a.Draws scanned) (id : Nat) (option : String × String) :
    (a.setOption options id option).Draws scanned := by
  refine setOption_induction (motive := fun b => b.Draws scanned) (fun _ => h) (fun f hf => ?_)
    fun f _ => ?_
  · obtain ⟨hlayers, hfeatures, hmarks⟩ :=
      DrawFunction.set_frame options.imagesByFunction option.1 option.2 f a.layers
    have hdraws : (ArtFunction.draw f).Draws scanned :=
      h.functions _ (List.mem_iff_getElem?.mpr ⟨id, hf⟩)
    refine ⟨hmarks.trans h.layers, FunctionTable.forall_mem_modify h.functions (fun _ _ => ?_) id⟩
    change _ = Layer.featuresAt scanned _
    rw [hlayers, hfeatures]
    exact hdraws
  · exact ⟨h.layers, FunctionTable.forall_mem_modify h.functions
      (fun _ _ => ArtFunction.draws_animation _ _) id⟩

/-- A layer that is given to a function adds its needs to that function. -/
theorem Draws.addLayer [CurveLibrary] (h : a.Draws scanned) (options : CompileOptions)
    (art : Artwork)
    (order : LayerOrder) {index : Nat} {layer : Layer} (hlayer : scanned[index]? = some layer) :
    (a.addLayer options art order index layer).2.Draws scanned := by
  unfold Assembly.addLayer
  cases order.kind with
  | draw => exact h.addDraw _ hlayer
  | animation => exact h.addAnimation art _ index layer

/-- Going through all layers keeps the invariant. -/
theorem draws_run [CurveLibrary] (options : CompileOptions) (art : Artwork) (scanned : List Layer) :
    (run options art scanned).Draws scanned := by
  have hstart : ({ layers := scanned } : Assembly).Draws scanned := ⟨rfl, by simp⟩
  exact run_induction (motive := fun _ a => a.Draws scanned) options art scanned hstart
    (fun _ h => ⟨h.layers, h.functions⟩) (fun hlayer h => h.addLayer options art _ hlayer)
    fun id option h => h.setOption id option

end Assembly

/-- Finding an animation function changes no more of a draw function than what it follows. -/
theorem FunctionTable.exists_bindDraw_eq (t : FunctionTable) (f : DrawFunction) :
    ∃ animation, (t.bindDraw f).1 = { f with animation } := by
  unfold bindDraw
  split
  · exact ⟨f.animation, rfl⟩
  · split <;> exact ⟨_, rfl⟩

/-- Binding does not change what a function draws. -/
theorem ArtFunction.Draws.bindAnimation {layers : List Layer} {f : ArtFunction}
    (h : f.Draws layers) (t : FunctionTable) : (t.bindAnimation f).1.Draws layers := by
  cases f with
  | animation f => exact ArtFunction.draws_animation _ _
  | draw f =>
    change (ArtFunction.draw (t.bindDraw f).1).Draws layers
    obtain ⟨animation, hbound⟩ := t.exists_bindDraw_eq f
    rw [hbound]
    exact h

/-- Nor do triggers. -/
theorem ArtFunction.Draws.setTriggers {layers : List Layer} {f : ArtFunction}
    (h : f.Draws layers) (triggers : List Trigger) : (f.setTriggers triggers).Draws layers := by
  cases f <;> exact h

/-- Finding what functions refer to leaves the art alone. -/
theorem FunctionTable.draws_bind {layers : List Layer} {t : FunctionTable}
    (h : ∀ f ∈ t.functions, f.Draws layers) :
    ∀ f ∈ (t.bindAnimations.2.bindTriggers).2.functions, f.Draws layers := by
  intro f hf
  -- back from the triggers to the animations, and from these to the functions as they were
  rw [functions_bindTriggers, functions_bindAnimations] at hf
  obtain ⟨bound, hbound, rfl⟩ := List.mem_map.mp hf
  obtain ⟨g, hg, rfl⟩ := List.mem_map.mp hbound
  exact ((h g hg).bindAnimation t).setTriggers _

/-- A compiled document has the layers and patterns of its scan: the layers but for the mark that
cuts the page, the patterns but for the names of symbol functions. Its draw functions need what
their layers need, and the warnings of the scan are among its own. -/
theorem Artwork.drawn_of_compile [CurveLibrary] {art : Artwork} {options : CompileOptions}
    {c : Compiled} (hc : art.compile options = .ok c) :
    c.layers.map Layer.uncut = (art.scan options.maxDepth).1.map Layer.uncut ∧
      (∀ f ∈ c.functions.functions, f.Draws (art.scan options.maxDepth).1) ∧
      c.patterns = (art.scan options.maxDepth).2.patterns.nameSymbols c.functions.names ∧
      (art.scan options.maxDepth).2.warnings ⊆ c.warnings := by
  have hdraws := Assembly.draws_run options art (art.scan options.maxDepth).1
  have hparts := comesFrom_of_compile hc
  refine ⟨?_, ?_, hparts.patterns, fun w hw => ?_⟩
  · rw [hparts.layers]
    exact hdraws.layers
  · rw [hparts.functions]
    exact FunctionTable.draws_bind hdraws.functions
  · rw [hparts.warnings]
    simp [hw]

end ArtCanvas
