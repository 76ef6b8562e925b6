import ArtCanvas.Proofs.Compile.Functions
import ArtCanvas.Proofs.Compile.PaintingOrder

/-!
# Which layers the page is cut to

Whether the page is cut is kept twice: by the draw function and, as a mark, by the function's first
layer. Options on any of the layers that share the function change both at once. Since a layer is
painted by one function only, the mark of a first layer is never touched on behalf of another
function, and all other layers are left without a mark.

* `ArtFunction.cutLayer?`: the layer that a function cuts the page to.
* `FunctionTable.Cuts`: the marks of layers agree with the functions of a table.
* `Assembly.cuts_run`: they do after all layers, with a lemma for each step.
* `Artwork.crop_on_first_layers`: the marks of a compiled document.
-/

namespace ArtCanvas

namespace ArtFunction

/-- The layer that a function cuts the page to: the first one that it paints, if it cuts the page at
all. -/
def cutLayer? : ArtFunction → Option Nat
  | .draw f => if f.crop then f.layers.head? else none
  | .animation _ => none

/-- A draw function paints some layer. -/
def IsPopulated : ArtFunction → Prop
  | .draw f => f.layers ≠ []
  | .animation _ => True

/-- A draw function cuts the page to its first layer, if it cuts it at all. -/
theorem cutLayer?_eq_some_iff {f : DrawFunction} {i : Nat} :
    (ArtFunction.draw f).cutLayer? = some i ↔ f.crop = true ∧ f.layers.head? = some i := by
  simp [cutLayer?]

/-- No other layer of the function is cut. -/
theorem cutLayer?_ne {f : DrawFunction} {first i : Nat} {rest : List Nat}
    (hlayers : f.layers = first :: rest) (hne : first ≠ i) :
    (ArtFunction.draw f).cutLayer? ≠ some i := by
  rw [Ne, cutLayer?_eq_some_iff, hlayers]
  exact fun h => hne (Option.some.inj h.2)

/-- What a function cuts is a layer that it paints. -/
theorem mem_painted_of_cutLayer? {f : ArtFunction} {i : Nat} (h : f.cutLayer? = some i) :
    i ∈ f.painted := by
  cases f with
  | draw f => exact List.mem_of_mem_head? (cutLayer?_eq_some_iff.mp h).2
  | animation f => cases h

end ArtFunction

namespace FunctionTable

/-- Every draw function paints some layer, and those layers are marked that functions cut the page
to. -/
structure Cuts (t : FunctionTable) (layers : List Layer) : Prop where
  populated : ∀ f ∈ t.functions, f.IsPopulated
  marks : ∀ i l, layers[i]? = some l →
    (l.crop = true ↔ some i ∈ t.functions.map ArtFunction.cutLayer?)

variable {t t' : FunctionTable} {layers : List Layer}

/-- Functions that cut the page to the same layers need the same marks. -/
theorem Cuts.of_cutLayers (h : t.Cuts layers) (hpopulated : ∀ f ∈ t'.functions, f.IsPopulated)
    (hcuts : ∀ i, some i ∈ t'.functions.map ArtFunction.cutLayer? ↔
      some i ∈ t.functions.map ArtFunction.cutLayer?) : t'.Cuts layers :=
  ⟨hpopulated, fun i l hl => (h.marks i l hl).trans (hcuts i).symm⟩

/-- A function can be replaced by one that cuts the page to the same layer. -/
theorem Cuts.replace (h : t.Cuts layers) {before after : List ArtFunction} {f f' : ArtFunction}
    (heq : t.functions = before ++ f :: after) (heq' : t'.functions = before ++ f' :: after)
    (hpopulated : f'.IsPopulated) (hcut : f'.cutLayer? = f.cutLayer?) : t'.Cuts layers := by
  have hall := h.populated
  rw [heq, List.forall_mem_append, List.forall_mem_cons] at hall
  refine h.of_cutLayers ?_ fun i => ?_
  · rw [heq', List.forall_mem_append, List.forall_mem_cons]
    exact ⟨hall.1, hpopulated, hall.2.2⟩
  · rw [heq, heq']
    simp [hcut]

/-- A new function cuts the page to nothing. -/
theorem Cuts.concat (h : t.Cuts layers) {f : ArtFunction} (heq : t'.functions = t.functions ++ [f])
    (hpopulated : f.IsPopulated) (hcut : f.cutLayer? = none) : t'.Cuts layers := by
  refine h.of_cutLayers ?_ fun i => ?_
  · rw [heq, List.forall_mem_append, List.forall_mem_singleton]
    exact ⟨h.populated, hpopulated⟩
  · rw [heq]
    simp [hcut]

/-- A layer that one function paints is cut to on behalf of no other function. -/
theorem mem_cutLayers_iff {before after : List ArtFunction} {f : ArtFunction} {i : Nat}
    (h : ((before ++ f :: after).flatMap ArtFunction.painted).Nodup) (hi : i ∈ f.painted) :
    some i ∈ (before ++ f :: after).map ArtFunction.cutLayer? ↔ f.cutLayer? = some i := by
  rw [List.flatMap_append, List.flatMap_cons] at h
  have hbefore : ∀ g ∈ before, g.cutLayer? ≠ some i := by
    intro g hg hcut
    have hmem := List.mem_flatMap_of_mem hg (ArtFunction.mem_painted_of_cutLayer? hcut)
    exact (List.nodup_append.mp h).2.2 i hmem i (by simp [hi]) rfl
  have hafter : ∀ g ∈ after, g.cutLayer? ≠ some i := by
    intro g hg hcut
    have hmem := List.mem_flatMap_of_mem hg (ArtFunction.mem_painted_of_cutLayer? hcut)
    exact (List.nodup_append.mp (List.nodup_append.mp h).2.1).2.2 i hi i hmem rfl
  simp only [List.map_append, List.map_cons, List.mem_append, List.mem_cons, List.mem_map]
  constructor
  · rintro (⟨g, hg, hcut⟩ | hcut | ⟨g, hg, hcut⟩)
    · exact absurd hcut (hbefore g hg)
    · exact hcut.symm
    · exact absurd hcut (hafter g hg)
  · exact fun hcut => .inr (.inl hcut.symm)

end FunctionTable

/-- An option that cuts the page, or no longer cuts it, changes the function and the mark of its
first layer alike. No other option changes any of this. -/
theorem DrawFunction.set_crop (byFunction : Bool) (key value : String) (f : DrawFunction)
    (layers : List Layer) :
    let state := (f.set byFunction key value layers).2
    state.1.layers = f.layers ∧
      (state.1.crop = f.crop ∧ state.2 = layers ∨
        state.2 = applyToLayers (.crop state.1.crop) f layers) := by
  refine set_induction
    (P := fun state : DrawFunction × List Layer => state.1.layers = f.layers ∧
      (state.1.crop = f.crop ∧ state.2 = layers ∨
        state.2 = applyToLayers (.crop state.1.crop) f layers))
    ⟨rfl, .inl ⟨rfl, rfl⟩⟩ fun s _ => ⟨layers_apply byFunction s f, ?_⟩
  by_cases hs : s.part = .crop
  · cases s <;> first | exact .inr rfl | cases hs
  · exact .inl ⟨crop_apply hs, applyToLayers_eq hs⟩

/-- Where the mark of the first layer is made to agree with a function, all marks agree again. -/
theorem FunctionTable.Cuts.recut {t t' : FunctionTable} {layers : List Layer} (h : t.Cuts layers)
    {before after : List ArtFunction} {f f' : DrawFunction}
    (heq : t.functions = before ++ .draw f :: after)
    (heq' : t'.functions = before ++ .draw f' :: after) (hlayers : f'.layers = f.layers)
    (hnodup : t.painted.Nodup) :
    t'.Cuts (DrawFunction.applyToLayers (.crop f'.crop) f layers) := by
  -- the function that is changed, and those around it
  have hall := h.populated
  rw [heq, List.forall_mem_append, List.forall_mem_cons] at hall
  constructor
  case populated =>
    rw [heq', List.forall_mem_append, List.forall_mem_cons]
    exact ⟨hall.1, fun hnil => hall.2.1 (hlayers ▸ hnil), hall.2.2⟩
  case marks =>
    intro i l hl
    obtain ⟨first, rest, hfirst⟩ := List.exists_cons_of_ne_nil hall.2.1
    have hfirst' : f'.layers = first :: rest := hlayers.trans hfirst
    rw [DrawFunction.applyToLayers_crop hfirst, List.getElem?_modify] at hl
    obtain ⟨l₀, hl₀, rfl⟩ := Option.map_eq_some_iff.mp hl
    by_cases hi : first = i
    · -- no other function paints the first layer, so its mark is that of the function
      subst hi
      have hnodup' :
          ((before ++ ArtFunction.draw f' :: after).flatMap ArtFunction.painted).Nodup := by
        simpa [FunctionTable.painted, heq, ArtFunction.painted, hlayers] using hnodup
      rw [heq', FunctionTable.mem_cutLayers_iff hnodup' (by simp [ArtFunction.painted, hfirst']),
        ArtFunction.cutLayer?_eq_some_iff, hfirst']
      simp
    · -- another layer is not touched, and is cut to on behalf of other functions only
      have hcut := (ArtFunction.cutLayer?_ne hfirst hi).symm
      have hcut' := (ArtFunction.cutLayer?_ne hfirst' hi).symm
      have hmarks := h.marks i l₀ hl₀
      rw [heq] at hmarks
      rw [heq', if_neg hi]
      simpa [hcut, hcut'] using hmarks

namespace Assembly

variable {a : Assembly} {options : CompileOptions}

open FunctionTable

/-- No layer is painted twice. -/
theorem Arranged.nodup_painted {layers : List Layer} {n : Nat} (h : a.Arranged layers n) :
    a.functions.painted.Nodup := by
  rw [h.painted]
  exact List.nodup_range.filter _

/-- A layer that is added to a function is not the first one, unless the function is new. -/
theorem cuts_addDraw (h : a.functions.Cuts a.layers) (base : String) (index : Nat) (layer : Layer) :
    (a.addDraw base index layer).2.functions.Cuts a.layers := by
  unfold addDraw FunctionTable.modify
  dsimp only
  rcases a.functions.addDraw_cases base with ⟨before, f, after, heq, -, -, hadd⟩ | hadd
  · have hlayers : f.layers ≠ [] := h.populated (.draw f) (by simp [heq])
    rw [hadd]
    dsimp only
    rw [heq, modify_append_cons]
    refine h.replace heq rfl ?_ ?_
    · exact List.append_ne_nil_of_left_ne_nil hlayers [index]
    · simp [ArtFunction.cutLayer?, DrawFunction.addLayer, List.head?_append_of_ne_nil _ hlayers]
  · rw [hadd]
    dsimp only
    rw [modify_append_cons]
    exact h.concat rfl (List.cons_ne_nil index []) rfl

/-- Animation functions cut nothing. -/
theorem cuts_addAnimation [CurveLibrary] (h : a.functions.Cuts a.layers) (art : Artwork)
    (base : String) (index : Nat) (layer : Layer) :
    (a.addAnimation options art base index layer).2.functions.Cuts a.layers := by
  unfold addAnimation FunctionTable.addAnimation FunctionTable.push FunctionTable.modify
  dsimp only
  rw [modify_append_cons]
  exact h.concat rfl trivial rfl

/-- A layer that is given to a function leaves all marks as they are. -/
theorem cuts_addLayer [CurveLibrary] (h : a.functions.Cuts a.layers) (options : CompileOptions)
    (art : Artwork) (order : LayerOrder) (index : Nat) (layer : Layer) :
    (a.addLayer options art order index layer).2.functions.Cuts
      (a.addLayer options art order index layer).2.layers := by
  unfold addLayer
  cases order.kind with
  | draw => exact cuts_addDraw h order.base index layer
  | animation => exact cuts_addAnimation h art order.base index layer

/-- An option changes the marks as it changes the functions. -/
theorem cuts_setOption (h : a.functions.Cuts a.layers) (hnodup : a.functions.painted.Nodup)
    (id : Nat) (option : String × String) :
    (a.setOption options id option).functions.Cuts (a.setOption options id option).layers := by
  refine setOption_induction (motive := fun b => b.functions.Cuts b.layers) (fun _ => h)
    (fun f hf => ?_) fun f hf => ?_
  · obtain ⟨hid, hget⟩ := List.getElem?_eq_some_iff.mp hf
    have hset := DrawFunction.set_crop options.imagesByFunction option.1 option.2 f a.layers
    generalize f.set options.imagesByFunction option.1 option.2 a.layers = result at hset ⊢
    obtain ⟨outcome, f', layers'⟩ := result
    obtain ⟨before, g, after, heq, rfl, hmodify⟩ :=
      List.exists_of_modify (fun _ => ArtFunction.draw f') hid
    obtain rfl : g = .draw f := by simpa [heq] using hget
    dsimp only at hset ⊢
    rw [FunctionTable.modify, hmodify]
    rcases hset with ⟨hlayers, ⟨hcrop, rfl⟩ | rfl⟩
    · -- an option that has nothing to do with the page
      refine h.replace heq rfl ?_ ?_
      · exact fun hnil => h.populated (.draw f) (by simp [heq]) (hlayers ▸ hnil)
      · rw [ArtFunction.cutLayer?, hcrop, hlayers, ArtFunction.cutLayer?]
    · exact h.recut heq rfl hlayers hnodup
  · obtain ⟨hid, hget⟩ := List.getElem?_eq_some_iff.mp hf
    obtain ⟨before, g, after, heq, rfl, hmodify⟩ :=
      List.exists_of_modify (fun _ => ArtFunction.animation (f.set option.1 option.2).2) hid
    obtain rfl : g = .animation f := by simpa [heq] using hget
    rw [FunctionTable.modify, hmodify]
    exact h.replace heq rfl trivial rfl

/-- After all layers, the marks agree with the functions. -/
theorem cuts_run [CurveLibrary] (options : CompileOptions) (art : Artwork) {layers : List Layer}
    (h : ∀ l ∈ layers, l.crop = false) :
    (run options art layers).functions.Cuts (run options art layers).layers := by
  have hstart : ({ layers } : Assembly).functions.Cuts layers := by
    refine ⟨List.forall_mem_nil _, fun i l hl => ?_⟩
    simp [h l (List.mem_iff_getElem?.mpr ⟨i, hl⟩)]
  -- that one layer is painted once is needed where an option changes its mark
  refine (run_induction
    (motive := fun n a => a.Arranged layers n ∧ a.functions.Cuts a.layers) options art layers
    ⟨⟨rfl, rfl⟩, hstart⟩ ?_ ?_ ?_).2
  · exact fun _ ⟨harranged, hcuts⟩ => ⟨⟨harranged.painted, harranged.followed⟩, hcuts⟩
  · exact fun hlayer ⟨harranged, hcuts⟩ =>
      ⟨harranged.addLayer art hlayer, cuts_addLayer hcuts options art _ _ _⟩
  · exact fun id option ⟨harranged, hcuts⟩ =>
      ⟨harranged.setOption id option, cuts_setOption hcuts harranged.nodup_painted id option⟩

end Assembly

/-- Finding what a function refers to leaves the layers that it paints and the page alone. -/
theorem FunctionTable.bindFunction_cut (t : FunctionTable) (f : ArtFunction) :
    (t.bindFunction f).cutLayer? = f.cutLayer? ∧
      ((t.bindFunction f).IsPopulated ↔ f.IsPopulated) := by
  cases f with
  | animation f => exact ⟨rfl, .rfl⟩
  | draw f =>
    obtain ⟨animation, hbound⟩ := t.exists_bindDraw_eq f
    rw [bindFunction, bindAnimation_draw, hbound]
    exact ⟨rfl, .rfl⟩

/-- Binding does not change the cuts. -/
theorem FunctionTable.cuts_bind {t : FunctionTable} {layers : List Layer} (h : t.Cuts layers) :
    t.bindAnimations.2.bindTriggers.2.Cuts layers := by
  refine h.of_cutLayers ?_ fun i => ?_
  · rw [functions_bind, List.forall_mem_map]
    exact fun f hf => (t.bindFunction_cut f).2.mpr (h.populated f hf)
  · have hcut : ArtFunction.cutLayer? ∘ t.bindFunction = ArtFunction.cutLayer? :=
      funext fun f => (t.bindFunction_cut f).1
    rw [functions_bind, List.map_map, hcut]

/-- The marks of a compiled document agree with its functions. -/
theorem Artwork.cuts_of_compile [CurveLibrary] {art : Artwork} {options : CompileOptions}
    {c : Compiled} (hc : art.compile options = .ok c) : c.functions.Cuts c.layers := by
  have hparts := comesFrom_of_compile hc
  rw [hparts.functions, hparts.layers]
  refine FunctionTable.cuts_bind (Assembly.cuts_run options art fun l hl => ?_)
  rw [scan_fst] at hl
  obtain ⟨layer, -, rfl⟩ := List.mem_map.mp hl
  rfl

namespace FunctionTable.Cuts

variable {t : FunctionTable} {layers : List Layer}

/-- Of the layers that a function paints, only the first one may be marked. -/
theorem map_crop (h : t.Cuts layers) (hnodup : t.painted.Nodup) {f : DrawFunction}
    (hf : .draw f ∈ t.functions) {i : Nat} (hi : i ∈ f.layers) (hlt : i < layers.length) :
    layers[i]?.map Layer.crop = some (f.crop && f.layers.head? == some i) := by
  obtain ⟨before, after, heq⟩ := List.append_of_mem hf
  have hmarks := h.marks i layers[i] (List.getElem?_eq_getElem hlt)
  rw [painted, heq] at hnodup
  rw [heq, mem_cutLayers_iff hnodup hi, ArtFunction.cutLayer?_eq_some_iff] at hmarks
  rw [List.getElem?_eq_getElem hlt, Option.map_some, Option.some_inj, Bool.eq_iff_iff, hmarks]
  simp

/-- The first layer that a function paints is marked if the function cuts the page, and the others
are not marked. -/
theorem exists_first (h : t.Cuts layers) (hnodup : t.painted.Nodup)
    (hlt : ∀ i ∈ t.painted, i < layers.length) {f : DrawFunction} (hf : .draw f ∈ t.functions) :
    ∃ first rest, f.layers = first :: rest ∧ layers[first]?.map Layer.crop = some f.crop ∧
      ∀ i ∈ rest, layers[i]?.map Layer.crop = some false := by
  obtain ⟨first, rest, hlayers⟩ := List.exists_cons_of_ne_nil (h.populated _ hf)
  have hcrop : ∀ i ∈ f.layers, layers[i]?.map Layer.crop =
      some (f.crop && f.layers.head? == some i) := fun i hi =>
    h.map_crop hnodup hf hi (hlt i (List.mem_flatMap_of_mem hf hi))
  have hdistinct : f.layers.Nodup := (List.nodup_flatMap.mp hnodup).1 (.draw f) hf
  rw [hlayers, List.nodup_cons] at hdistinct
  rw [hlayers, List.forall_mem_cons] at hcrop
  refine ⟨first, rest, hlayers, ?_, fun i hi => ?_⟩
  · rw [hcrop.1]
    simp
  · have hne : first ≠ i := fun heq => hdistinct.1 (heq ▸ hi)
    rw [hcrop.2 i hi]
    simp [hne]

/-- A layer that no function paints is not marked. -/
theorem map_crop_of_not_mem (h : t.Cuts layers) {i : Nat} (hi : i ∉ t.painted)
    (hlt : i < layers.length) : layers[i]?.map Layer.crop = some false := by
  rw [List.getElem?_eq_getElem hlt, Option.map_some, Option.some_inj, Bool.eq_false_iff]
  intro hcrop
  obtain ⟨f, hf, hcut⟩ := List.mem_map.mp ((h.marks i _ (List.getElem?_eq_getElem hlt)).mp hcrop)
  exact hi (List.mem_flatMap_of_mem hf (ArtFunction.mem_painted_of_cutLayer? hcut))

end FunctionTable.Cuts

/-- In a compiled document, every draw function paints some layers. The first of them is marked
exactly if the function cuts the page, and the others are not marked, whatever options on any of
them ask for. A layer that is followed is not marked either. -/
theorem Artwork.crop_on_first_layers [CurveLibrary] {art : Artwork} {options : CompileOptions}
    {c : Compiled} (hc : art.compile options = .ok c) :
    (∀ f, .draw f ∈ c.functions.functions → ∃ first rest, f.layers = first :: rest ∧
        c.layers[first]?.map Layer.crop = some f.crop ∧
        ∀ i ∈ rest, c.layers[i]?.map Layer.crop = some false) ∧
      ∀ m, .animation m ∈ c.functions.functions → ∃ i, m.layer = some i ∧
        c.layers[i]?.map Layer.crop = some false := by
  have hcuts := cuts_of_compile hc
  obtain ⟨hpainted, hfollowed⟩ := placed_of_compile hc
  constructor
  · intro f hf
    refine hcuts.exists_first ?_ (fun i hi => ?_) hf
    · rw [hpainted]
      exact List.nodup_range.filter _
    · rw [hpainted, List.mem_filter, List.mem_range] at hi
      exact hi.1
  · intro m hm
    have hmem : m.layer ∈ c.functions.followed :=
      List.mem_flatMap.mpr ⟨.animation m, hm, List.mem_singleton_self _⟩
    rw [hfollowed] at hmem
    obtain ⟨i, hi, hlayer⟩ := List.mem_map.mp hmem
    rw [List.mem_filter, List.mem_range] at hi
    -- a layer is either painted or followed
    have hnot : i ∉ c.functions.painted := by
      rw [hpainted, List.mem_filter]
      exact fun hdrawn => by simp [hdrawn.2] at hi
    exact ⟨i, hlayer.symm, hcuts.map_crop_of_not_mem hnot hi.1⟩

namespace ArtDocument

/-- Layers that share functions and do not agree on whether the page is cut, one of which joins its
function past a layer that is followed. -/
def sharedCrops : ArtDocument where
  layers := #[{ name := "a(crop: yes)", art := some 0 },
    { name := "path(type: animation; crop: yes)", art := some 1 },
    { name := "a(crop: no)", art := some 2 }, { name := "a(crop: yes)", art := some 3 },
    { name := "b(crop: no; c: on)", art := some 4 }, { name := "b", art := some 5 }]
  nodes := #[{ bounds := unitBox }, { bounds := unitBox }, { bounds := unitBox },
    { bounds := unitBox }, { bounds := unitBox }, { bounds := unitBox }]

/-- In `sharedCrops` the options of the fourth layer from below take back those of the third, and
those of the topmost one give the mark to the third layer again. -/
theorem crop_on_first_layers_sharedCrops :
    ∃ c, sharedCrops.view.compile {} = .ok c ∧
      c.functions.draws.map (fun entry => (entry.2.layers, entry.2.crop)) =
        [([0, 1], true), ([2, 3, 5], true)] ∧
      (∀ f, .draw f ∈ c.functions.functions → ∃ first rest, f.layers = first :: rest ∧
        c.layers[first]?.map Layer.crop = some f.crop ∧
        ∀ i ∈ rest, c.layers[i]?.map Layer.crop = some false) ∧
      ∀ m, .animation m ∈ c.functions.functions → ∃ i, m.layer = some i ∧
        c.layers[i]?.map Layer.crop = some false := by
  have hcompile : (sharedCrops.view.compile {}).toOption.any (fun c =>
      c.functions.draws.map (fun entry => (entry.2.layers, entry.2.crop)) ==
        [([0, 1], true), ([2, 3, 5], true)]) = true := by
    decide +kernel
  obtain ⟨c, hc, htest⟩ := exists_ok_of_any hcompile
  exact ⟨c, hc, beq_iff_eq.mp htest, Artwork.crop_on_first_layers hc⟩

end ArtDocument

end ArtCanvas
