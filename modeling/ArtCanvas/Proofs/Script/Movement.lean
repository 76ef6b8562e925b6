import ArtCanvas.Proofs.Script.Declarations

/-!
# When a script can move

A compiled document says whether anything in it can move. A script that can move carries the clock
code and opens a timer. What a document says is found after its functions are bound to each other,
but a draw function is then asked for the name of the animation function that it is to follow, and
not for the function that was found.

* `Compiled.Moves`: there is something in a document that can move.
* `Compiled.Strays`: a draw function is to follow an animation function that is not there.
* `Code.openingsOf`: the first lines of all blocks in pieces of code.
* `Artwork.animated_iff`: a document is said to move if something in it moves or strays.
-/

namespace ArtCanvas

namespace ArtFunction

/-- An animation function moves. A draw function does if it follows one, has a running clock, or has
a trigger that listens to some clock. -/
def Moves : ArtFunction → Prop
  | .animation _ => True
  | .draw f => f.animation.isSome = true ∨ (∃ clock ∈ f.clocks, clock.isActive = true) ∨
      ∃ t ∈ f.triggers, t.source.isSome = true

/-- A draw function strays if it is to follow an animation function and follows none. -/
def Strays : ArtFunction → Prop
  | .animation _ => False
  | .draw f => f.animationName.isSome = true ∧ f.animation = none

/-- Whether a function moves can be decided field by field. -/
instance : DecidablePred Moves := fun f => by
  unfold Moves
  split <;> infer_instance

/-- So can whether it asks for a path that there is not. -/
instance : DecidablePred Strays := fun f => by
  unfold Strays
  split <;> infer_instance

/-- A draw function that follows only what it is to follow needs clocks if it moves or strays. -/
theorem needsClocks_draw_iff {f : DrawFunction}
    (h : f.animation.isSome = true → f.animationName.isSome = true) :
    (ArtFunction.draw f).needsClocks = true ↔
      (ArtFunction.draw f).Moves ∨ (ArtFunction.draw f).Strays := by
  have hclocks : f.activeClocks.isEmpty = false ↔ ∃ clock ∈ f.clocks, clock.isActive = true := by
    rw [DrawFunction.activeClocks, Bool.eq_false_iff, Ne, List.isEmpty_iff,
      List.filter_eq_nil_iff]
    simp
  simp only [needsClocks, DrawFunction.asksToMove, Bool.or_eq_true, Bool.not_eq_true', hclocks,
    List.any_eq_true, Moves, Strays]
  -- whether the function follows something decides between moving and straying
  cases hanimation : f.animation with
  | none =>
    simp only [Option.isSome_none, Bool.false_eq_true, and_true]
    rw [or_assoc, or_comm, false_or]
  | some i => simp [h (by rw [hanimation]; rfl)]

end ArtFunction

namespace Compiled

variable (c : Compiled)

/-- Some function moves. -/
def Moves : Prop := ∃ f ∈ c.functions.functions, f.Moves

/-- Some draw function is to follow an animation function and follows none. -/
def Strays : Prop := ∃ f ∈ c.functions.functions, f.Strays

/-- Whether a document moves is decided function by function. -/
instance : Decidable c.Moves := inferInstanceAs (Decidable (∃ f ∈ _, ArtFunction.Moves f))

/-- So is whether one of its functions strays. -/
instance : Decidable c.Strays := inferInstanceAs (Decidable (∃ f ∈ _, ArtFunction.Strays f))

variable {c} {art : Artwork} {options : CompileOptions}

/-- A document counts as animated if something in it moves, or asks for a path that there is not. -/
theorem animated_eq_true_iff [CurveLibrary] (hc : art.compile options = .ok c) :
    c.animated = true ↔ c.Moves ∨ c.Strays := by
  have hneeds : ∀ f ∈ c.functions.functions, f.needsClocks = true ↔ f.Moves ∨ f.Strays := by
    intro f hf
    cases f with
    | animation m => exact iff_of_true rfl (Or.inl trivial)
    | draw f =>
      -- what a draw function follows was found by name
      refine ArtFunction.needsClocks_draw_iff fun hsome => ?_
      rw [Artwork.animation_of_compile hc hf] at hsome
      exact Option.isSome_of_isSome_bind hsome
  rw [(Artwork.comesFrom_of_compile hc).animated, List.any_eq_true, Moves, Strays, ← exists_or]
  exact exists_congr fun f => by rw [← and_or_left, and_congr_right (hneeds f)]

/-- A draw function that is to follow an animation function follows none exactly if there is none of
that name. -/
theorem animation_eq_none_iff [CurveLibrary] (hc : art.compile options = .ok c) {f : DrawFunction}
    {name : String} (hf : .draw f ∈ c.functions.functions) (hname : f.animationName = some name) :
    f.animation = none ↔ ∀ m, .animation m ∈ c.functions.functions → m.header.name ≠ name := by
  have hnames := (Artwork.bound_of_compile hc).names
  rw [Artwork.animation_of_compile hc hf, hname, Option.bind_some,
    Option.eq_none_iff_forall_ne_some]
  constructor
  · intro hnone m hm heq
    obtain ⟨i, hi⟩ := List.mem_iff_getElem?.mp hm
    exact hnone i ((FunctionTable.find?_eq_some_iff_of_kind hnames).mpr ⟨_, hi, heq, rfl⟩)
  · intro hnone i hfind
    obtain ⟨g, hg, hname, hkind⟩ := (FunctionTable.find?_eq_some_iff_of_kind hnames).mp hfind
    cases g with
    | draw g => cases hkind
    | animation m => exact hnone m (List.mem_of_getElem? hg) hname

/-- Something happens with the clocks of a script at the start if the document is said to move. -/
theorem isSome_startup (c : Compiled) (art : Artwork) :
    (c.outlineScript art).startup.isSome = c.animated := by
  unfold outlineScript
  cases c.animated <;> rfl

end Compiled

namespace Code

mutual

/-- The first lines of the blocks in a piece of code. -/
@[simp]
def openings : Code → List String
  | .line _ | .blank => []
  | .block opening body _ => opening :: openingsOf body

/-- The first lines of the blocks in pieces of code. -/
@[simp]
def openingsOf : List Code → List String
  | [] => []
  | code :: rest => code.openings ++ openingsOf rest

end

/-- The first lines of the blocks in two parts follow each other. -/
@[simp]
theorem openingsOf_append (code code' : List Code) :
    openingsOf (code ++ code') = openingsOf code ++ openingsOf code' := by
  induction code with
  | nil => rfl
  | cons c code ih => rw [List.cons_append, openingsOf, openingsOf, ih, List.append_assoc]

/-- Lines open no blocks. -/
@[simp]
theorem openingsOf_map_line {α : Type} (text : α → String) (l : List α) :
    openingsOf (l.map fun a => .line (text a)) = [] := by
  induction l with
  | nil => rfl
  | cons a l ih => rw [List.map_cons, openingsOf, ih]; rfl

/-- Plain lines open no block. -/
@[simp]
theorem openingsOf_lines (lines : List String) : openingsOf (lines.map .line) = [] :=
  openingsOf_map_line id lines

/-- The blocks of several parts are those of each. -/
theorem mem_openingsOf_flatMap {α : Type} {code : α → List Code} {l : List α} {opening : String} :
    opening ∈ openingsOf (l.flatMap code) ↔ ∃ a ∈ l, opening ∈ openingsOf (code a) := by
  induction l with
  | nil => simp [openingsOf]
  | cons a l ih => simp [ih]

end Code

namespace Script

variable {o : EmitOptions} {s : Script}

/-- The first line of the block that is run again and again. -/
def timerLine : String := "setInterval(() => \x7b"

/-- A line that begins with another letter does not open the timer. -/
theorem timerLine_ne_append {c : Char} {cs : List Char} (hc : c ≠ 's') (rest : String) :
    timerLine ≠ String.ofList (c :: cs) ++ rest := by
  intro heq
  have hfirst := congrArg (fun line => line.toList.head?) heq
  simp only [String.toList_append, String.toList_ofList] at hfirst
  exact hc (Option.some.inj hfirst).symm

/-- A scope opens no block. -/
theorem openingsOf_scope (ctx : String) (scope : Scope) :
    Code.openingsOf (scope.code ctx) = [] := by
  rw [Scope.code, Stmt.code, Code.openingsOf_append, Code.openingsOf_lines, Code.openingsOf_lines]
  rfl

/-- The function of a symbol has no timer. -/
theorem timerLine_not_mem_symbol (ctx : String) (f : SymbolFunction) :
    timerLine ∉ Code.openingsOf (f.code ctx) := by
  have hfunction : ∀ rest, timerLine ≠ "function " ++ rest := timerLine_ne_append (by decide)
  simp [SymbolFunction.code, openingsOf_scope, hfunction]

/-- Nor has the function that paints the hidden canvases. -/
theorem timerLine_not_mem_tiles (ctx : String) (tiles : List Tile) :
    timerLine ∉ Code.openingsOf (tilesCode ctx tiles) := by
  have htile : ∀ tile : Tile, timerLine ∉ Code.openingsOf (tile.code ctx) := by
    intro tile
    simp [Tile.code, openingsOf_scope, timerLine]
  unfold tilesCode
  split
  · exact List.not_mem_nil
  · have hopening : timerLine ≠ "export function drawPatterns(): void \x7b" := by decide
    simp [Code.mem_openingsOf_flatMap, hopening, htile]

/-- Nor has the object of a draw function. -/
theorem timerLine_not_mem_object (ctx : String) (object : DrawObject) :
    timerLine ∉ Code.openingsOf (object.code ctx) := by
  have hexport : ∀ rest, timerLine ≠ "export const " ++ rest := timerLine_ne_append (by decide)
  have hpaint : ∀ rest, timerLine ≠ "paint(" ++ rest := timerLine_ne_append (by decide)
  have hpainting : ∀ name,
      Code.openingsOf (DrawObject.paintCode ctx name object.painting) = [] := by
    intro name
    cases object.painting with
    | image => rfl
    | art scope => exact openingsOf_scope ctx scope
  unfold DrawObject.code functionLine
  cases object.file? <;>
    simp [hpainting, hexport, hpaint, String.append_assoc]

/-- Nor has the object of a path. -/
theorem timerLine_not_mem_path (path : PathObject) : timerLine ∉ Code.openingsOf path.code := by
  have hexport : ∀ rest, timerLine ≠ "export const " ++ rest := timerLine_ne_append (by decide)
  have hlist : timerLine ≠ "[" := by decide
  simp [PathObject.code, PathObject.opening, hexport, hlist, String.append_assoc]

/-- Declarations of clocks open no block. -/
theorem openingsOf_clocks (clocks : List ClockObject) :
    Code.openingsOf (clocksCode clocks) = [] := by
  unfold clocksCode
  split
  · rfl
  · simp

/-- A frame has no timer. -/
theorem timerLine_not_mem_frame : timerLine ∉ Code.openingsOf (s.frameCode o) := by
  have hexport : ∀ rest, timerLine ≠ "export function " ++ rest := timerLine_ne_append (by decide)
  simp [frameCode, hexport]

/-- The function that starts a script has the timer if there is something to start. -/
theorem timerLine_mem_render_iff :
    timerLine ∈ Code.openingsOf (s.renderCode o) ↔ s.startup.isSome = true := by
  have hexport : ∀ rest,
      timerLine ≠ "export function render(canvas: HTMLCanvasElement = " ++ rest :=
    timerLine_ne_append (by decide)
  have hpage : Code.openingsOf (s.pageCode o) = [] := by
    unfold pageCode
    split <;> rfl
  have hstart : timerLine ∈ Code.openingsOf (s.startCode o) ↔ s.startup.isSome = true := by
    unfold startCode
    cases s.startup with
    | none => simp
    | some startup => simp [timerLine]
  simp only [renderCode, Code.openingsOf, Code.openings, Code.openingsOf_append, hpage,
    List.append_nil, List.nil_append, List.mem_cons, hstart, String.append_assoc, hexport, false_or]

/-- A script opens the timer if something happens with its clocks at the start. -/
theorem timerLine_mem_code_iff :
    timerLine ∈ Code.openingsOf (s.code o) ↔ s.startup.isSome = true := by
  have hruntime : Code.openingsOf (s.runtimeCode o) = [] := by
    unfold runtimeCode
    split <;> simp
  have hsummary : Code.openingsOf (s.summaryCode o) = [] := by
    unfold summaryCode
    split <;> simp
  simp only [code, Code.openingsOf_append, List.mem_append, hruntime, hsummary, openingsOf_clocks,
    Code.mem_openingsOf_flatMap, timerLine_not_mem_symbol, timerLine_not_mem_tiles,
    timerLine_not_mem_object, timerLine_not_mem_path, timerLine_not_mem_frame,
    timerLine_mem_render_iff]
  simp

/-- A script that embeds the clock code takes all of its names, and any other one takes none. -/
theorem PartsNamed.mem_runtimeNames_iff (h : s.PartsNamed) {name : String}
    (hname : name ∈ Runtime.names) :
    name ∈ Code.declaredNames (s.code o) ↔ s.startup.isSome = true ∧ o.includeRuntime = true := by
  have hown : name ∈ ownNames := by simp [ownNames, hname]
  have hothers : ∀ word ∈ Runtime.names,
      word ∉ ["bounds", "drawPatterns", "drawFrame", "render"] := by
    simp [Runtime.names_eq]
  have hmade : name ∉ s.madeNames.map Identifier.escape := by
    intro hmem
    obtain ⟨made, hmade, heq⟩ := List.mem_map.mp hmem
    exact (h.isName_madeNames hmade).escape_ne (reserved_of_mem_ownNames hown) heq
  rw [declaredNames_code h, perm_moduleNames.mem_iff, List.mem_append, or_iff_left hmade,
    fixedNames]
  have hfixed := hothers name hname
  simp only [List.mem_cons, List.not_mem_nil, or_false, not_or] at hfixed
  cases s.startup.isSome <;> cases o.includeRuntime <;> cases s.tiles.isEmpty <;>
    simp [hname, hfixed]

end Script

/-- Whatever art a host shows: a compiled document is said to move exactly if there is something in
it that can move, or if a draw function is to follow an animation function and follows none. It
follows none exactly if no animation function has the name. A script is written for the document,
which takes the names of the clock code if the document is said to move and the code is wanted, and
opens a timer if the document is said to move. -/
theorem Artwork.animated_iff [CurveLibrary] (art : Artwork) (options : CompileOptions)
    (c : Compiled) (hc : art.compile options = .ok c) :
    (c.animated = true ↔ c.Moves ∨ c.Strays) ∧
      (∀ f name, .draw f ∈ c.functions.functions → f.animationName = some name →
        (f.animation = none ↔ ∀ m, .animation m ∈ c.functions.functions → m.header.name ≠ name)) ∧
      ∃ script, c.script art c.outline.renderer = .ok script ∧
        (∀ o : EmitOptions, c.emit art o = .ok (script.text o)) ∧
        ∀ o : EmitOptions,
          (∀ name ∈ Runtime.names, name ∈ Code.declaredNames (script.code o) ↔
            c.animated = true ∧ o.includeRuntime = true) ∧
          (Script.timerLine ∈ Code.openingsOf (script.code o) ↔ c.animated = true) := by
  have hscript := Compiled.script_outline c art
  have hstartup := c.isSome_startup art
  refine ⟨Compiled.animated_eq_true_iff hc, fun f name hf hname => ?_, c.outlineScript art, hscript,
    Compiled.emit_of_script hscript, fun o => ⟨fun name hname => ?_, ?_⟩⟩
  · exact Compiled.animation_eq_none_iff hc hf hname
  · rw [(Compiled.partsNamed hc).mem_runtimeNames_iff hname, hstartup]
  · rw [Script.timerLine_mem_code_iff, hstartup]

namespace ArtDocument

/-- A layer of any name, above a layer that is drawn as well. -/
def aboveDrawn (name : String) : ArtDocument where
  layers := #[{ name, art := some 0 }, { name := "b", art := some 1 }]
  nodes := #[{ bounds := unitBox }, { bounds := unitBox }]

/-- A trigger that listens to a clock of the layer below moves, though no clock runs. -/
theorem animated_aboveDrawn_trigger :
    (aboveDrawn "a(rotate-trigger:b.scale.finished)").Valid ∧
      ∃ c script, (aboveDrawn "a(rotate-trigger:b.scale.finished)").view.compile {} = .ok c ∧
        c.script (aboveDrawn "a(rotate-trigger:b.scale.finished)").view c.outline.renderer =
          .ok script ∧
        c.Moves ∧ ¬ c.Strays ∧ c.animated = true ∧
        (∀ name ∈ Runtime.names, name ∈ Code.declaredNames (script.code {})) ∧
        Script.timerLine ∈ Code.openingsOf (script.code {}) := by
  have hcompile : ((aboveDrawn "a(rotate-trigger:b.scale.finished)").view.compile
      {}).toOption.any (fun c => decide (c.Moves ∧ ¬ c.Strays)) = true := by
    decide +kernel
  obtain ⟨c, hc, hmoves⟩ := exists_ok_of_any hcompile
  obtain ⟨hmoves, hstrays⟩ := of_decide_eq_true hmoves
  obtain ⟨hanimated, -, script, hscript, -, hcode⟩ := Artwork.animated_iff _ {} c hc
  have hsaid := hanimated.mpr (Or.inl hmoves)
  obtain ⟨hruntime, htimer⟩ := hcode {}
  exact ⟨by decide +kernel, c, script, hc, hscript, hmoves, hstrays, hsaid,
    fun name hname => (hruntime name hname).mpr ⟨hsaid, rfl⟩, htimer.mpr hsaid⟩

/-- A layer that is to follow the layer below follows nothing, as that is drawn. Nothing moves, and
still the script carries the clock code and opens a timer. -/
theorem animated_aboveDrawn_stray :
    (aboveDrawn "a(animation:b)").Valid ∧
      ∃ c script, (aboveDrawn "a(animation:b)").view.compile {} = .ok c ∧
        c.script (aboveDrawn "a(animation:b)").view c.outline.renderer = .ok script ∧
        ¬ c.Moves ∧ c.animated = true ∧
        (∀ name ∈ Runtime.names, name ∈ Code.declaredNames (script.code {})) ∧
        Script.timerLine ∈ Code.openingsOf (script.code {}) := by
  have hcompile : ((aboveDrawn "a(animation:b)").view.compile {}).toOption.any (fun c =>
      decide (¬ c.Moves ∧ c.animated = true)) = true := by
    decide +kernel
  obtain ⟨c, hc, hmoves⟩ := exists_ok_of_any hcompile
  obtain ⟨hmoves, hanimated⟩ := of_decide_eq_true hmoves
  have hstartup : (c.outlineScript (aboveDrawn "a(animation:b)").view).startup.isSome = true := by
    rw [Compiled.isSome_startup, hanimated]
  exact ⟨by decide +kernel, c, _, hc, c.script_outline _, hmoves, hanimated,
    fun name hname => ((Compiled.partsNamed hc).mem_runtimeNames_iff hname).mpr ⟨hstartup, rfl⟩,
    Script.timerLine_mem_code_iff.mpr hstartup⟩

end ArtDocument

end ArtCanvas
