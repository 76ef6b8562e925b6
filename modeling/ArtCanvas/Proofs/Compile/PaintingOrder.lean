import ArtCanvas.Proofs.Compile.Drawn
import ArtCanvas.Proofs.Function.Registration
import ArtCanvas.Proofs.Scan.Records

/-!
# The order in which layers are painted

Layers are given to functions from the lowest to the topmost, and a function may get several. A
layer joins an earlier function only if nothing is painted after that one, so painting the functions
one after the other paints the layers in their order.

* `FunctionTable.painted`, `FunctionTable.followed`: the layers that the functions of a table paint
  or follow, in the order of the functions.
* `Assembly.Arranged`: the invariant of an assembly that has gone through the first layers.
* `ArtDocument.painting_order`: a compiled document has all visible layers, paints those that are to
  be drawn, each once and from the lowest to the topmost, and follows the others.
-/

namespace ArtCanvas

/-- A change to the element after the first ones. -/
theorem modify_append_cons {α : Type} (before after : List α) (a : α) (g : α → α) :
    (before ++ a :: after).modify before.length g = before ++ g a :: after := by
  rw [List.modify_eq_take_cons_drop (by simp)]
  simp

namespace ArtFunction

/-- The layers that a function paints. -/
def painted : ArtFunction → List Nat
  | .draw f => f.layers
  | .animation _ => []

/-- The layer that a function follows. -/
def followed : ArtFunction → List (Option Nat)
  | .draw _ => []
  | .animation f => [f.layer]

/-- The layers that a function paints and those that it follows. -/
def placed (f : ArtFunction) : List Nat × List (Option Nat) := (f.painted, f.followed)

theorem painted_eq_nil {f : ArtFunction} (h : f.isDraw = false) : f.painted = [] := by
  cases f with
  | draw f => cases h
  | animation f => rfl

end ArtFunction

namespace FunctionTable

/-- The layers that the functions paint, function by function. -/
def painted (t : FunctionTable) : List Nat := t.functions.flatMap ArtFunction.painted

/-- The layers that the functions follow, function by function. -/
def followed (t : FunctionTable) : List (Option Nat) := t.functions.flatMap ArtFunction.followed

theorem flatMap_draws (t : FunctionTable) :
    t.draws.flatMap (fun entry => entry.2.layers) = t.painted := by
  -- the positions beside the functions do not matter
  rw [draws, painted, List.filterMap_eq_flatMap_toList, List.flatMap_assoc]
  conv_rhs => rw [← List.zipIdx_map_fst 0 t.functions, List.flatMap_map]
  refine List.flatMap_congr fun entry _ => ?_
  obtain ⟨f, i⟩ := entry
  cases f <;> simp [ArtFunction.asDraw?, ArtFunction.painted]

theorem map_animations (t : FunctionTable) :
    t.animations.map (fun entry => entry.2.layer) = t.followed := by
  rw [animations, followed, List.filterMap_eq_flatMap_toList, List.map_flatMap]
  conv_rhs => rw [← List.zipIdx_map_fst 0 t.functions, List.flatMap_map]
  refine List.flatMap_congr fun entry _ => ?_
  obtain ⟨f, i⟩ := entry
  cases f <;> rfl

/-- Where each function paints and follows the same layers as before, all together do. -/
theorem placed_congr {t t' : FunctionTable}
    (h : t'.functions.map ArtFunction.placed = t.functions.map ArtFunction.placed) :
    t'.painted = t.painted ∧ t'.followed = t.followed := by
  have hpainted := congrArg (List.flatMap Prod.fst) h
  have hfollowed := congrArg (List.flatMap Prod.snd) h
  rw [List.flatMap_map, List.flatMap_map] at hpainted hfollowed
  exact ⟨hpainted, hfollowed⟩

/-- A layer that asks for a draw function gets one after which nothing is painted. By then nothing
else has changed. -/
theorem addDraw_last (t : FunctionTable) (name : String) :
    ∃ before f after, (t.addDraw name).2.functions = before ++ .draw f :: after ∧
      (t.addDraw name).1 = before.length ∧ (∀ g ∈ after, g.isDraw = false) ∧
      (t.addDraw name).2.painted = t.painted ∧ (t.addDraw name).2.followed = t.followed := by
  rcases t.addDraw_cases name with ⟨before, f, after, heq, hafter, -, hadd⟩ | hadd
  · exact ⟨before, f, after, by rw [hadd, heq], by rw [hadd], hafter, by rw [hadd]; rfl,
      by rw [hadd]; rfl⟩
  · -- a new function is the last one, and has no layer yet
    refine ⟨t.functions, { header := t.newHeader name }, [], by rw [hadd], by rw [hadd],
      List.forall_mem_nil _, ?_, ?_⟩
    · simp [hadd, painted, ArtFunction.painted]
    · simp [hadd, followed, ArtFunction.followed]

end FunctionTable

/-- An option leaves the layer that is followed alone. -/
theorem MotionFunction.layer_set (key value : String) (f : MotionFunction) :
    (f.set key value).2.layer = f.layer := by
  refine set_induction (P := fun g : MotionFunction => g.layer = f.layer) rfl
    fun s _ => ?_
  cases s <;> rfl

/-- The layer's name asks for a draw function. -/
def Layer.isDrawn (l : Layer) : Bool := (LayerOrder.parse l.name).kind == .draw

/-- The layer at a position is to be drawn. -/
def Layer.drawnAt (layers : List Layer) (i : Nat) : Bool := layers[i]?.any Layer.isDrawn

namespace Assembly

/-- The assembly has gone through the first `n` layers: those that are to be drawn are painted, each
once and in their order, and the others are followed. -/
structure Arranged (a : Assembly) (layers : List Layer) (n : Nat) : Prop where
  painted : a.functions.painted = (List.range n).filter (Layer.drawnAt layers)
  followed : a.functions.followed =
    ((List.range n).filter fun i => !Layer.drawnAt layers i).map some

variable {a : Assembly} {layers : List Layer} {n : Nat} {options : CompileOptions}

/-- What changes neither the painted nor the followed layers keeps them arranged. -/
theorem Arranged.of_placed (h : a.Arranged layers n) {a' : Assembly}
    (hplaced : a'.functions.functions.map ArtFunction.placed =
      a.functions.functions.map ArtFunction.placed) : a'.Arranged layers n := by
  obtain ⟨hpainted, hfollowed⟩ := FunctionTable.placed_congr hplaced
  exact ⟨hpainted.trans h.painted, hfollowed.trans h.followed⟩

/-- A layer that is drawn is painted after all others. -/
theorem placed_addDraw (a : Assembly) (base : String) (index : Nat) (layer : Layer) :
    (a.addDraw base index layer).2.functions.painted = a.functions.painted ++ [index] ∧
      (a.addDraw base index layer).2.functions.followed = a.functions.followed := by
  obtain ⟨before, f, after, heq, hid, hafter, hpainted, hfollowed⟩ := a.functions.addDraw_last base
  have hnone : after.flatMap ArtFunction.painted = [] :=
    List.flatMap_eq_nil_iff.mpr fun g hg => ArtFunction.painted_eq_nil (hafter g hg)
  rw [← hpainted, ← hfollowed]
  unfold addDraw FunctionTable.modify FunctionTable.painted FunctionTable.followed
  dsimp only
  -- the layer is added to the function after which nothing is painted
  rw [heq, hid, modify_append_cons]
  simp [hnone, ArtFunction.painted, ArtFunction.followed, DrawFunction.addLayer]

/-- A layer that is followed is followed by a new function. -/
theorem placed_addAnimation [CurveLibrary] (a : Assembly) (options : CompileOptions) (art : Artwork)
    (base : String) (index : Nat) (layer : Layer) :
    (a.addAnimation options art base index layer).2.functions.painted = a.functions.painted ∧
      (a.addAnimation options art base index layer).2.functions.followed =
        a.functions.followed ++ [some index] := by
  unfold addAnimation FunctionTable.addAnimation FunctionTable.push FunctionTable.modify
    FunctionTable.painted FunctionTable.followed
  dsimp only
  rw [modify_append_cons]
  cases art.findPath options.maxDepth layer.art <;>
    simp [ArtFunction.painted, ArtFunction.followed, MotionFunction.setPath]

/-- A layer is given to a function of the kind that its name asks for. -/
theorem Arranged.addLayer [CurveLibrary] (h : a.Arranged layers n) (art : Artwork) {layer : Layer}
    (hlayer : layers[n]? = some layer) :
    (a.addLayer options art (LayerOrder.parse layer.name) n layer).2.Arranged layers (n + 1) := by
  have hdrawn : Layer.drawnAt layers n = ((LayerOrder.parse layer.name).kind == .draw) := by
    rw [Layer.drawnAt, hlayer, Option.any_some, Layer.isDrawn]
  unfold Assembly.addLayer
  -- the position of the layer joins the one list or the other
  cases hkind : (LayerOrder.parse layer.name).kind with
  | draw =>
    obtain ⟨hpainted, hfollowed⟩ := a.placed_addDraw (LayerOrder.parse layer.name).base n layer
    constructor
    · simp [hpainted, h.painted, List.range_succ, hdrawn, hkind]
    · simp [hfollowed, h.followed, List.range_succ, hdrawn, hkind]
  | animation =>
    obtain ⟨hpainted, hfollowed⟩ := a.placed_addAnimation options art
      (LayerOrder.parse layer.name).base n layer
    constructor
    · simp [hpainted, h.painted, List.range_succ, hdrawn, hkind]
    · simp [hfollowed, h.followed, List.range_succ, hdrawn, hkind]

/-- An option changes neither what is painted nor what is followed. -/
theorem Arranged.setOption (h : a.Arranged layers n) (id : Nat) (option : String × String) :
    (a.setOption options id option).Arranged layers n := by
  refine setOption_induction (motive := fun b => b.Arranged layers n) (fun _ => h)
    (fun f hf => ?_) fun f hf => ?_
  · refine h.of_placed (map_modify_of_eq fun g hg => ?_)
    obtain rfl := Option.some.inj (hf.symm.trans hg)
    simp [ArtFunction.placed, ArtFunction.painted, ArtFunction.followed,
      (f.set_frame options.imagesByFunction option.1 option.2 a.layers).1]
  · refine h.of_placed (map_modify_of_eq fun g hg => ?_)
    obtain rfl := Option.some.inj (hf.symm.trans hg)
    simp [ArtFunction.placed, ArtFunction.painted, ArtFunction.followed, f.layer_set]

/-- After all layers, all layers are arranged. -/
theorem arranged_run [CurveLibrary] (options : CompileOptions) (art : Artwork)
    (layers : List Layer) : (run options art layers).Arranged layers layers.length := by
  have hstart : ({ layers } : Assembly).Arranged layers 0 := ⟨rfl, rfl⟩
  exact run_induction (motive := fun n a => a.Arranged layers n) options art layers hstart
    (fun _ h => ⟨h.painted, h.followed⟩) (fun hlayer h => h.addLayer art hlayer)
    fun id option h => h.setOption id option

end Assembly

/-- Finding what functions refer to changes neither what is painted nor what is followed. -/
theorem FunctionTable.placed_bind (t : FunctionTable) :
    (t.bindAnimations.2.bindTriggers).2.painted = t.painted ∧
      (t.bindAnimations.2.bindTriggers).2.followed = t.followed := by
  have hdraw : ∀ f, (t.bindDraw f).1.layers = f.layers := by
    intro f
    obtain ⟨animation, hbound⟩ := t.exists_bindDraw_eq f
    rw [hbound]
  refine placed_congr ?_
  rw [functions_bindTriggers, functions_bindAnimations]
  simp only [List.map_map]
  refine List.map_congr_left fun f _ => ?_
  cases f with
  | animation f => rfl
  | draw f => exact congrArg (fun layers => (layers, [])) (hdraw f)

/-- A layer is to be drawn by its name, which options leave alone. -/
theorem Layer.drawnAt_congr {layers layers' : List Layer}
    (h : layers.map Layer.uncut = layers'.map Layer.uncut) :
    Layer.drawnAt layers = Layer.drawnAt layers' := by
  have huncut : ∀ (layers : List Layer) (i : Nat),
      drawnAt layers i = drawnAt (layers.map uncut) i := by
    intro layers i
    rw [drawnAt, drawnAt, List.getElem?_map]
    cases layers[i]? <;> rfl
  funext i
  rw [huncut layers, h, ← huncut]

/-- A compiled document paints and follows its layers as they are arranged. -/
theorem Artwork.placed_of_compile [CurveLibrary] {art : Artwork} {options : CompileOptions}
    {c : Compiled} (hc : art.compile options = .ok c) :
    c.functions.painted = (List.range c.layers.length).filter (Layer.drawnAt c.layers) ∧
      c.functions.followed =
        ((List.range c.layers.length).filter fun i => !Layer.drawnAt c.layers i).map some := by
  have harranged := Assembly.arranged_run options art (art.scan options.maxDepth).1
  have hlayers := (drawn_of_compile hc).1
  have hlength : c.layers.length = (art.scan options.maxDepth).1.length := by
    simpa using congrArg List.length hlayers
  rw [Layer.drawnAt_congr hlayers, hlength, ← harranged.painted, ← harranged.followed,
    (comesFrom_of_compile hc).functions]
  exact FunctionTable.placed_bind _

namespace ArtDocument

/-- For every document that passes the check and can be compiled, the layers are the visible ones,
from the lowest to the topmost, with what they show. The draw functions paint, one after the other,
exactly the layers that are to be drawn, each once and in their order, and the animation functions
follow all other layers in their order. -/
theorem painting_order [CurveLibrary] (doc : ArtDocument) (hvalid : doc.Valid)
    (options : CompileOptions) (c : Compiled) (hc : doc.view.compile options = .ok c) :
    List.Forall₂ (fun layer l => l.uncut.Records doc.view options.maxDepth layer)
        ((List.range doc.view.layerCount).reverse.filter doc.view.isLayerVisible) c.layers ∧
      c.functions.draws.flatMap (fun entry => entry.2.layers) =
        (List.range c.layers.length).filter (Layer.drawnAt c.layers) ∧
      c.functions.animations.map (fun entry => entry.2.layer) =
        ((List.range c.layers.length).filter fun i => !Layer.drawnAt c.layers i).map some := by
  obtain ⟨hpainted, hfollowed⟩ := Artwork.placed_of_compile hc
  refine ⟨?_, c.functions.flatMap_draws.trans hpainted, c.functions.map_animations.trans hfollowed⟩
  -- the layers are those of the scan, none of which cuts the page
  have h := hvalid.wellLinked
  have hlayers := (Artwork.drawn_of_compile hc).1
  rw [Artwork.scan_fst, List.map_map] at hlayers
  have hrecords : List.Forall₂ (fun layer (l : Layer) => l.Records doc.view options.maxDepth layer)
      doc.view.visibleLayers (c.layers.map Layer.uncut) := by
    rw [hlayers, List.forall₂_map_right_iff]
    exact List.forall₂_same.mpr fun layer _ => h.layer_records options.maxDepth layer
  exact List.forall₂_map_right_iff.mp hrecords

/-- Layers of one name below and above other layers, one of which is hidden and one is followed. -/
def interleavedNames : ArtDocument where
  layers := #[{ name := "a", art := some 0 }, { name := "path(type: animation)", art := some 1 },
    { name := "a", art := some 2 }, { name := "a", visible := false, art := some 3 },
    { name := "b", art := some 4 }, { name := "a", art := some 5 }]
  nodes := #[{ bounds := unitBox }, { bounds := unitBox }, { bounds := unitBox },
    { bounds := unitBox }, { bounds := unitBox }, { bounds := unitBox }]

/-- In `interleavedNames` the topmost layer joins a function past the path, and does not join the
first function of its name, since another one is painted after that. -/
theorem painting_order_interleavedNames :
    interleavedNames.Valid ∧ ∃ c, interleavedNames.view.compile {} = .ok c ∧
      c.functions.names = ["a", "b", "a1", "path"] ∧
      c.functions.draws.map (fun entry => entry.2.layers) = [[0], [1], [2, 4]] ∧
      List.Forall₂ (fun layer l => l.uncut.Records interleavedNames.view 256 layer) [5, 4, 2, 1, 0]
        c.layers ∧
      c.functions.draws.flatMap (fun entry => entry.2.layers) =
        (List.range c.layers.length).filter (Layer.drawnAt c.layers) ∧
      c.functions.animations.map (fun entry => entry.2.layer) =
        ((List.range c.layers.length).filter fun i => !Layer.drawnAt c.layers i).map some := by
  have hvalid : interleavedNames.Valid := by decide +kernel
  have hcompile : (interleavedNames.view.compile {}).toOption.any (fun c =>
      c.functions.names == ["a", "b", "a1", "path"] &&
        c.functions.draws.map (fun entry => entry.2.layers) == [[0], [1], [2, 4]]) = true := by
    decide +kernel
  obtain ⟨c, hc, htest⟩ := exists_ok_of_any hcompile
  rw [Bool.and_eq_true, beq_iff_eq, beq_iff_eq] at htest
  exact ⟨hvalid, c, hc, htest.1, htest.2, painting_order interleavedNames hvalid {} c hc⟩

end ArtDocument

end ArtCanvas
