import ArtCanvas.Proofs.Script.Layout

/-!
# What the built-in renderer writes

The built-in renderer never fails, so neither does writing a script with it. This module says what
the scopes of such a script are.

* `Compiled.outlineSymbol`, `Compiled.outlineTile`, `Compiled.outlineObject`: the parts of a script
  that paint art.
* `Compiled.Written`: a script that is made of these parts.
* `Compiled.outlineScript`: the script that is written, and `Compiled.script_outline` that it is.
* `Compiled.exists_script`: every compiled document has a script that is made of these parts.
* `Compiled.emit_of_script`: the text that is written is that of the script.
-/

namespace ArtCanvas

/-- The scope in which a draw object paints art. -/
def DrawObject.scope? (o : DrawObject) : Option Scope :=
  match o.painting with
  | .art scope => some scope
  | .image _ _ _ _ => none

/-- The scopes of a script: those of symbol functions, of the blocks for hidden canvases, and of
draw objects. -/
def Script.scopes (s : Script) : List Scope :=
  s.symbols.map SymbolFunction.scope ++ s.tiles.map Tile.scope ++
    s.objects.filterMap DrawObject.scope?

namespace Compiled

variable (c : Compiled) (art : Artwork)

/-- The statements for a list of siblings. `active` is the symbol whose own art is being painted. -/
def paintFrom (transform : Affine Float) (active : Option Nat) (first : Option Nat) : List Stmt :=
  (art.siblings first).flatMap (c.outline.paintNode art transform active c.outline.maxDepth)

/-- The function that paints a symbol. -/
def outlineSymbol (p : Pattern) : SymbolFunction :=
  { name := p.functionName
    scope :=
      { locals := p.features
        body := c.paintFrom art p.bounds.contentTransform (some p.handle) p.content } }

/-- The block that paints the hidden canvas of a pattern. -/
def outlineTile (entry : Pattern × Nat) : Tile :=
  { name := entry.1.name, canvas := entry.2
    width := entry.1.bounds.extent.1, height := entry.1.bounds.extent.2
    scope :=
      { locals := entry.1.features
        body := c.paintFrom art entry.1.bounds.contentTransform none entry.1.content } }

/-- The scope that paints the layers of a draw function. -/
def outlineLayers (f : DrawFunction) : Scope :=
  { locals := f.features
    body := f.layers.flatMap fun i =>
      c.paintFrom art (f.placement.localTransform c.bounds) none (c.layers[i]?.bind Layer.art) }

/-- The object of a draw function. -/
def outlineObject (f : DrawFunction) : DrawObject :=
  { function := f.header.name, bounds := f.header.bounds
    painting :=
      match f.imageFile with
      | some file =>
        .image file ((f.placement.localTransform c.bounds).apply
          ⟨f.header.bounds.left, f.header.bounds.top⟩)
          f.header.bounds.extent.1 f.header.bounds.extent.2
      | none => .art (c.outlineLayers art f) }

/-- The parts of the script that paint art are those that the built-in renderer makes. -/
structure Written (script : Script) : Prop where
  symbols : script.symbols = c.patterns.symbols.map (c.outlineSymbol art)
  tiles : script.tiles = (c.patterns.tiles.filterMap fun p => p.canvas.map fun canvas =>
    (p, canvas)).map (c.outlineTile art)
  objects : script.objects = c.functions.draws.map fun entry => c.outlineObject art entry.2

/-- The hidden canvases, each with the pattern that is painted on it. -/
def tileEntries : List (Pattern × Nat) :=
  c.patterns.tiles.filterMap fun p => p.canvas.map fun canvas => (p, canvas)

/-- The script that the built-in renderer makes. -/
def outlineScript : Script where
  bounds := c.bounds
  symbols := c.patterns.symbols.map (c.outlineSymbol art)
  tiles := c.tileEntries.map (c.outlineTile art)
  objects := c.functions.draws.map fun entry => c.outlineObject art entry.2
  paths := c.functions.animations.map fun entry => c.pathObject entry.2
  clocks := c.functions.draws.flatMap c.clockObjects
  frame := c.functions.draws.map fun entry => c.frameCall entry.2
  startup := if c.animated then some c.startup else none
  summary := c.summaryLines

variable {c art}

/-- The built-in renderer paints lists of siblings without failing. -/
theorem siblings_outline (transform : Affine Float) (first : Option Nat) :
    Renderer.siblings c.outline.renderer.node art transform first =
      .ok (c.paintFrom art transform none first) := by
  rw [paintFrom, List.flatMap_def]
  exact congrArg (fun bodies => return (← bodies).flatten)
    (List.mapM_pure (m := Except Failure) (f := c.outline.paint art transform))

theorem tile_outline (entry : Pattern × Nat) :
    tile art c.outline.renderer entry = .ok (c.outlineTile art entry) := by
  unfold tile
  simp only [siblings_outline]
  rfl

theorem drawObject_outline (f : DrawFunction) :
    c.drawObject art c.outline.renderer f = .ok (c.outlineObject art f) := by
  unfold drawObject painting outlineObject
  cases f.imageFile with
  | some file => rfl
  | none =>
    dsimp only
    -- no layer fails, so neither do all of them
    simp only [siblings_outline]
    rw [show (fun i => Except.ok _ : Nat → Except Failure _) = fun i => pure _ from rfl,
      List.mapM_pure, outlineLayers, List.flatMap_def]
    rfl

/-- What is made of each element without failing is made of the whole list. -/
theorem mapM_ok {α β ε : Type} {f : α → Except ε β} {g : α → β} (h : ∀ a, f a = .ok (g a))
    (l : List α) : l.mapM f = .ok (l.map g) := by
  rw [show f = fun a => pure (g a) from funext h, List.mapM_pure]
  rfl

/-- Writing a script with the built-in renderer does not fail. -/
theorem script_outline (c : Compiled) (art : Artwork) :
    c.script art c.outline.renderer = .ok (c.outlineScript art) := by
  have hsymbols := mapM_ok (f := symbolFunction art c.outline.renderer) (g := c.outlineSymbol art)
    (fun _ => rfl) c.patterns.symbols
  have htiles := mapM_ok (f := tile art c.outline.renderer) (g := c.outlineTile art) tile_outline
    c.tileEntries
  have hobjects := mapM_ok
    (f := fun entry : Nat × DrawFunction => c.drawObject art c.outline.renderer entry.2)
    (g := fun entry => c.outlineObject art entry.2)
    (fun entry => drawObject_outline entry.2) c.functions.draws
  rw [tileEntries] at htiles
  rw [script, hsymbols, htiles, hobjects]
  rfl

/-- A compiled document has a script. -/
theorem exists_script (c : Compiled) (art : Artwork) :
    ∃ script, c.script art c.outline.renderer = .ok script ∧ c.Written art script :=
  ⟨_, script_outline c art, ⟨rfl, rfl, rfl⟩⟩

/-- The text that is written is that of the script. -/
theorem emit_of_script {script : Script} (h : c.script art c.outline.renderer = .ok script)
    (o : EmitOptions) : c.emit art o = .ok (script.text o) := by
  rw [emit, emitWith, h]
  rfl

end Compiled

end ArtCanvas
