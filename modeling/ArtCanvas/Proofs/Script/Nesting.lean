import ArtCanvas.Proofs.Decimal.Characters
import ArtCanvas.Proofs.Script.ContextCalls
import ArtCanvas.Proofs.Script.Declarations
import ArtCanvas.Proofs.Script.Scopes
import ArtCanvas.Proofs.Script.SymbolCalls

/-!
# Nesting of scripts

A script opens and closes blocks, and keeps states of its context and goes back to them. The writer
would not notice a block that is closed twice, so this is said of the calls that emitting a script
makes. A page would not notice a state that is restored twice either, so that is said of the code:
for every block, of all lines in it, those in inner blocks included.

* `Code.Settles`: whatever the lines of a block keep, the lines of the same block restore.
* `Scope.Ordered`: a scope that the built-in renderer makes, and `Compiled.ordered_scopes` that all
  scopes are such.
* `Script.settles_code`: a script settles if its scopes are in order.
* `Artwork.script_wellNested`: every script is nested.
-/

namespace ArtCanvas

open Delimiter (Balanced)

namespace Code

mutual

/-- What the lines in a piece of code do with the states of the context. -/
def calls (ctx : String) : Code → List Delimiter
  | .line text => (contextCall? ctx text).toList
  | .blank => []
  | .block _ body _ => callsOf ctx body

/-- What the lines in pieces of code do with the states of the context. -/
def callsOf (ctx : String) : List Code → List Delimiter
  | [] => []
  | code :: rest => code.calls ctx ++ callsOf ctx rest

end

mutual

/-- The bodies of the blocks in a piece of code. -/
def bodies : Code → List (List Code)
  | .line _ | .blank => []
  | .block _ body _ => body :: bodiesOf body

/-- The bodies of the blocks in pieces of code. -/
def bodiesOf : List Code → List (List Code)
  | [] => []
  | code :: rest => code.bodies ++ bodiesOf rest

end

/-- The calls of two parts follow each other. -/
theorem callsOf_append (ctx : String) (code code' : List Code) :
    callsOf ctx (code ++ code') = callsOf ctx code ++ callsOf ctx code' := by
  induction code with
  | nil => rfl
  | cons first rest ih => rw [List.cons_append, callsOf, callsOf, ih, List.append_assoc]

/-- The calls of plain lines are read off one by one. -/
theorem callsOf_lines (ctx : String) (lines : List String) :
    callsOf ctx (lines.map .line) = lines.filterMap (contextCall? ctx) := by
  induction lines with
  | nil => rfl
  | cons line lines ih =>
    rw [List.map_cons, callsOf, calls, ih, List.filterMap_eq_flatMap_toList,
      List.filterMap_eq_flatMap_toList, List.flatMap_cons]

/-- The bodies of two parts follow each other. -/
theorem bodiesOf_append (code code' : List Code) :
    bodiesOf (code ++ code') = bodiesOf code ++ bodiesOf code' := by
  induction code with
  | nil => rfl
  | cons first rest ih => rw [List.cons_append, bodiesOf, bodiesOf, ih, List.append_assoc]

/-- Whatever the lines of a block keep, the lines of the same block restore. -/
def Settles (ctx : String) (code : List Code) : Prop :=
  ∀ body ∈ bodiesOf code, Balanced (callsOf ctx body)

/-- Code that settles, and that can be the body of a block. -/
structure Tidy (ctx : String) (code : List Code) : Prop where
  balanced : Balanced (callsOf ctx code)
  settles : Settles ctx code

section Settles

variable {ctx : String} {code code' : List Code}

/-- Two parts whose bodies are balanced make one. -/
theorem Settles.append (h : Settles ctx code) (h' : Settles ctx code') :
    Settles ctx (code ++ code') := by
  rw [Settles, bodiesOf_append, List.forall_mem_append]
  exact ⟨h, h'⟩

/-- Without code there is no body. -/
theorem settles_nil : Settles ctx [] := by simp [Settles, bodiesOf]

/-- A line has no body. -/
theorem settles_line (text : String) : Settles ctx [.line text] := by
  simp [Settles, bodiesOf, bodies]

/-- A blank line has no body. -/
theorem settles_blank : Settles ctx [.blank] := by simp [Settles, bodiesOf, bodies]

/-- Parts whose bodies are balanced can follow each other. -/
theorem settles_flatMap {α : Type} {f : α → List Code} {l : List α}
    (h : ∀ a ∈ l, Settles ctx (f a)) : Settles ctx (l.flatMap f) := by
  induction l with
  | nil => exact settles_nil
  | cons a l ih =>
    obtain ⟨hfirst, hrest⟩ := List.forall_mem_cons.mp h
    exact hfirst.append (ih hrest)

/-- Plain lines have no bodies. -/
theorem settles_map_line {α : Type} (text : α → String) (l : List α) :
    Settles ctx (l.map fun a => .line (text a)) := by
  rw [List.map_eq_flatMap]
  exact settles_flatMap fun a _ => settles_line (text a)

theorem Tidy.nil : Tidy ctx [] := ⟨.nil, settles_nil⟩

/-- What two tidy parts save and restore is balanced when they follow each other. -/
theorem Tidy.append (h : Tidy ctx code) (h' : Tidy ctx code') : Tidy ctx (code ++ code') where
  balanced := by
    rw [callsOf_append]
    exact h.balanced.append h'.balanced
  settles := h.settles.append h'.settles

/-- Tidy parts can follow each other. -/
theorem Tidy.flatMap {α : Type} {f : α → List Code} {l : List α} (h : ∀ a ∈ l, Tidy ctx (f a)) :
    Tidy ctx (l.flatMap f) := by
  induction l with
  | nil => exact .nil
  | cons a l ih =>
    obtain ⟨hfirst, hrest⟩ := List.forall_mem_cons.mp h
    exact hfirst.append (ih hrest)

/-- A line that neither saves nor restores is tidy. -/
theorem tidy_line {text : String} (h : contextCall? ctx text = none) : Tidy ctx [.line text] where
  balanced := by
    rw [callsOf, calls, h]
    exact .nil
  settles := settles_line text

/-- Such a line can be put in front of tidy code. -/
theorem Tidy.cons_line {text : String} (hcode : Tidy ctx code) (h : contextCall? ctx text = none) :
    Tidy ctx (.line text :: code) :=
  (tidy_line h).append hcode

/-- Lines that neither save nor restore are tidy. -/
theorem tidy_map_line {α : Type} {text : α → String} {l : List α}
    (h : ∀ a ∈ l, contextCall? ctx (text a) = none) : Tidy ctx (l.map fun a => .line (text a)) := by
  rw [List.map_eq_flatMap]
  exact .flatMap fun a ha => tidy_line (h a ha)

/-- Plain lines are tidy if what they save and restore is balanced. -/
theorem tidy_lines {lines : List String} (h : Balanced (lines.filterMap (contextCall? ctx))) :
    Tidy ctx (lines.map .line) where
  balanced := by rwa [callsOf_lines]
  settles := settles_map_line id lines

/-- A block settles if its body can be one. -/
theorem Tidy.settles_block (h : Tidy ctx code) (opening closing : String) :
    Settles ctx [.block opening code closing] := by
  rw [Settles, bodiesOf, bodies, bodiesOf, List.append_nil, List.forall_mem_cons]
  exact ⟨h.balanced, h.settles⟩

/-- A block around tidy code is tidy, whatever its first and last lines are. -/
theorem Tidy.block (h : Tidy ctx code) (opening closing : String) :
    Tidy ctx [.block opening code closing] where
  balanced := by
    rw [callsOf, calls, callsOf, List.append_nil]
    exact h.balanced
  settles := h.settles_block opening closing

end Settles

end Code

/-! ### Coordinates -/

/-- A coordinate ends otherwise than with a character that no number has. -/
theorem endsOtherwise_coordinate {ending : List Char} {c : Char}
    (hlast : ending.getLast? = some c) (hc : Decimal.isNumberChar c = false) (x : Float) :
    EndsOtherwise (Decimal.coordinate x).toList ending := by
  have hfree := Decimal.not_mem_coordinate hc x
  refine ⟨fun hsuffix => ?_, fun hsuffix => hfree (hsuffix.subset (List.mem_of_getLast? hlast))⟩
  -- both would end in the same character
  obtain ⟨before, rfl⟩ := hsuffix
  rw [List.getLast?_append_of_ne_nil _ (Decimal.coordinate_ne_nil x)] at hlast
  exact hfree (List.mem_of_getLast? hlast)

/-- A line that ends in a coordinate and a semicolon does nothing with the states. -/
theorem contextCall?_coordinate {ctx : String} (front : String) (x : Float) :
    contextCall? ctx (front ++ Decimal.coordinate x ++ ";") = none := by
  rw [← String.ofList_toList (s := Decimal.coordinate x)]
  exact contextCall?_of_semicolon front (endsOtherwise_coordinate rfl rfl x)

/-! ### The parts of a script -/

section Parts

variable {ctx : String}

/-- A scope as the built-in renderer makes it: all remarks and calls are ordinary, and the states
that are kept are those that are gone back to. -/
structure Scope.Ordered (scope : Scope) : Prop where
  ordinary : ∀ stmt ∈ scope.body, stmt.Ordinary
  balanced : Balanced (scope.body.filterMap Stmt.delimiter?)

/-- The lines of a scope keep and restore states where its statements do. -/
theorem Scope.Ordered.callsOf_code {scope : Scope} (h : scope.Ordered) :
    Code.callsOf ctx (scope.code ctx) = scope.body.filterMap Stmt.delimiter? := by
  have hlocals : ∀ line ∈ Scope.declarations ctx scope.locals, contextCall? ctx line = none := by
    rw [Scope.declarations_eq, List.forall_mem_map]
    rintro (_ | _ | _) -
    · unfold Local.declaration
      rw [String.append_assoc]
      exact contextCall?_of_mem 'c' (by decide) (Or.inl (by simp))
    · exact contextCall?_ofList rfl
    · exact contextCall?_ofList rfl
  -- behind the local variables come the lines of the statements, one statement after the other
  rw [Scope.code, Stmt.code, Code.callsOf_append, Code.callsOf_lines, Code.callsOf_lines,
    List.filterMap_eq_nil_iff.mpr hlocals, List.nil_append, List.filterMap_flatMap,
    List.filterMap_eq_flatMap_toList]
  exact List.flatMap_congr fun stmt hstmt => Stmt.filterMap_lines (h.ordinary stmt hstmt)

/-- The code of an ordered scope is tidy. -/
theorem Scope.Ordered.tidy {scope : Scope} (h : scope.Ordered) :
    Code.Tidy ctx (scope.code ctx) where
  balanced := by
    rw [h.callsOf_code]
    exact h.balanced
  settles := (Code.settles_map_line id _).append (Code.settles_map_line id _)

/-- In the function of a symbol, each body restores what it saves. -/
theorem SymbolFunction.settles {f : SymbolFunction} (h : f.scope.Ordered) :
    Code.Settles ctx (f.code ctx) :=
  (h.tidy.settles_block _ _).append Code.settles_blank

/-- The block of a hidden canvas. Its remark ends in the name of the pattern, not in a semicolon. -/
theorem Tile.tidy {tile : Tile} (h : tile.scope.Ordered) (hname : Identifier.IsName tile.name) :
    Code.Tidy ctx (tile.code ctx) := by
  have hremark : contextCall? ctx ("// " ++ tile.name) = none := by
    obtain ⟨last, hlast, hchar⟩ := hname.last
    refine contextCall?_of_getLast? ?_
    rw [String.toList_append, List.getLast?_append, hlast, Option.some_or]
    exact fun heq => absurd (Option.some.inj heq ▸ hchar) (by decide)
  have hcontext : contextCall? ctx ("const " ++ ctx ++ " = " ++ s!"canvas{tile.canvas}" ++
      ".getContext(\"2d\")!;") = none := by
    simp only [String.append_assoc]
    exact contextCall?_of_mem 'c' (by decide) (Or.inl (by simp))
  have hcanvas : contextCall? ctx ("const " ++ s!"canvas{tile.canvas}" ++ " = " ++
      canvasExpression (tileElement tile.canvas) ++ ";") = none := by
    -- the type at the end of the expression and the semicolon are one literal
    have hline : ∀ front element : String, front ++ canvasExpression element ++ ";" =
        front ++ "document.getElementById(" ++ Text.quote element ++ ") as HTMLCanvasElement;" := by
      intro front element
      unfold canvasExpression
      simp only [String.append_assoc, String.reduceAppend]
    exact hline _ _ ▸ contextCall?_of_ending _ (by decide)
  have hsize : ∀ property x, contextCall? ctx
      (s!"canvas{tile.canvas}" ++ property ++ Decimal.coordinate x ++ ";") = none :=
    fun property x => contextCall?_coordinate _ x
  have hlines := (((Code.tidy_line hcontext).cons_line (hsize ".height = " tile.height)).cons_line
    (hsize ".width = " tile.width)).cons_line hcanvas
  unfold code
  exact ((hlines.append h.tidy).block _ _).cons_line hremark

/-- So does each body in the function that paints the hidden canvases. -/
theorem settles_tilesCode {tiles : List Tile} (h : ∀ tile ∈ tiles, tile.scope.Ordered)
    (hnames : ∀ tile ∈ tiles, Identifier.IsName tile.name) :
    Code.Settles ctx (tilesCode ctx tiles) := by
  unfold tilesCode
  split
  · exact Code.settles_nil
  · exact (Code.Tidy.settles_block
      (.flatMap fun tile htile => Tile.tidy (h tile htile) (hnames tile htile)) _ _).append
      Code.settles_blank

/-- So does each body in the object of a draw function. -/
theorem DrawObject.settles {object : DrawObject}
    (h : ∀ scope, object.scope? = some scope → scope.Ordered) :
    Code.Settles ctx (object.code ctx) := by
  have hpainting : ∀ name, Code.Tidy ctx (paintCode ctx name object.painting) := by
    intro name
    unfold scope? at h
    cases hpainting : object.painting with
    | art scope =>
      rw [hpainting] at h
      exact (h scope rfl).tidy
    | image file corner width height =>
      refine Code.tidy_line ?_
      simp only [String.append_assoc]
      exact contextCall?_append 'd' (by decide) (by simp)
  have hbounds : contextCall? ctx ("bounds: " ++ object.bounds.literal ++ ",") = none :=
    contextCall?_of_ending _ (by decide)
  have hblock : ∀ name opening closing {image : List Code}, Code.Tidy ctx image →
      Code.Settles ctx [.block opening (.line ("bounds: " ++ object.bounds.literal ++ ",") ::
        image ++ [.block (functionLine "paint" ctx) (paintCode ctx name object.painting) "\x7d,"])
        closing] := by
    intro name opening closing image himage
    exact ((himage.append ((hpainting name).block _ _)).cons_line hbounds).settles_block _ _
  unfold code
  dsimp only
  -- an image is declared in the object, and gets its source behind it
  cases object.file? with
  | some file =>
    have himage : contextCall? ctx "image: new Image()," = none := contextCall?_ofList rfl
    exact (hblock _ _ _ (Code.tidy_line himage)).append
      ((Code.settles_line _).append Code.settles_blank)
  | none => exact (hblock _ _ _ .nil).append Code.settles_blank

/-- The object of a path neither saves nor restores. -/
theorem PathObject.settles (path : PathObject) : Code.Settles ctx path.code := by
  have hlist : ∀ front, contextCall? ctx (front ++ "],") = none := fun front =>
    contextCall?_of_ending front (by decide)
  have hsegments : Code.Tidy ctx (path.segments.map fun s => .line (segmentLine s)) :=
    Code.tidy_map_line fun segment _ => hlist _
  have hclock : contextCall? ctx (path.clock.literal ++ ",") = none :=
    contextCall?_of_ending _ (by decide)
  exact (((hsegments.block "[" "],").append
    ((Code.tidy_line hclock).cons_line (hlist _))).settles_block _ _).append Code.settles_blank

/-- Nor do the declarations of clocks. -/
theorem settles_clocksCode (clocks : List ClockObject) : Code.Settles ctx (clocksCode clocks) := by
  unfold clocksCode
  split
  · exact Code.settles_nil
  · exact (Code.settles_map_line _ _).append Code.settles_blank

end Parts

namespace Script

variable {o : EmitOptions} {s : Script}

/-- Nor does the runtime code. -/
theorem settles_runtimeCode : Code.Settles o.contextName (s.runtimeCode o) := by
  unfold runtimeCode
  split
  · exact (Code.settles_map_line id _).append Code.settles_blank
  · exact Code.settles_nil

/-- Nor do the remarks of a summary. -/
theorem settles_summaryCode : Code.Settles o.contextName (s.summaryCode o) := by
  unfold summaryCode
  split
  · exact Code.settles_blank.append (Code.settles_map_line _ _)
  · exact Code.settles_nil

variable (o s) in
/-- The lines of a frame keep and restore states where its statements do. -/
theorem filterMap_frameLines :
    ((s.frameBody o).flatMap (FrameStmt.lines o.contextName)).filterMap
      (contextCall? o.contextName) = (s.frameBody o).filterMap FrameStmt.delimiter? := by
  rw [List.filterMap_flatMap, List.filterMap_eq_flatMap_toList]
  exact List.flatMap_congr fun stmt _ => stmt.filterMap_lines

/-- A frame restores what it keeps, function by function. -/
theorem balanced_frameBody : Balanced ((s.frameBody o).filterMap FrameStmt.delimiter?) := by
  rw [frameBody, List.filterMap_flatMap]
  exact .flatMap fun call _ => call.balanced_body o.debug

/-- A frame restores what its statements save. -/
theorem settles_frameCode : Code.Settles o.contextName (s.frameCode o) := by
  have hlines := balanced_frameBody (o := o) (s := s)
  rw [← filterMap_frameLines] at hlines
  have hclear : contextCall? o.contextName (o.contextName ++ ".clearRect(0, 0, " ++
      coordinates [s.bounds.width, s.bounds.height] ++ ");") = none := by
    simp only [String.append_assoc]
    exact contextCall?_append 'c' (by decide) (by simp)
  exact (((Code.tidy_lines hlines).cons_line hclear).settles_block _ _).append Code.settles_blank

/-- The start keeps nothing and restores nothing. -/
theorem tidy_startCode : Code.Tidy o.contextName (s.startCode o) := by
  have hframe : contextCall? o.contextName ("drawFrame(" ++ o.contextName ++ ");") = none := by
    rw [String.append_assoc]
    exact contextCall?_of_mem 'd' (by decide) (Or.inl (by simp))
  have hupdate : contextCall? o.contextName "updateClocks();" = none :=
    contextCall?_ofList rfl
  unfold startCode
  cases s.startup with
  | none => exact Code.tidy_line hframe
  | some startup =>
    -- these lines end in empty parentheses too, but behind other words
    have hwirings : Code.Tidy o.contextName (startup.wirings.map fun w => .line w.line) :=
      Code.tidy_map_line fun w _ => contextCall?_of_ending _ (by decide)
    have hstarts : Code.Tidy o.contextName
        (startup.starts.map fun clock => .line (clock.text ++ ".start();")) :=
      Code.tidy_map_line fun clock _ => contextCall?_of_ending _ (by decide)
    exact (hwirings.append hstarts).append (((Code.tidy_line hframe).cons_line hupdate).block _ _)

/-- In the function that starts a script, each body restores what it saves. -/
theorem settles_renderCode : Code.Settles o.contextName (s.renderCode o) := by
  have hcontext : contextCall? o.contextName
      ("const " ++ o.contextName ++ " = canvas.getContext(\"2d\")!;") = none := by
    rw [String.append_assoc]
    exact contextCall?_of_mem 'c' (by decide) (Or.inl (by simp))
  have htiles : Code.Tidy o.contextName
      (if s.tiles.isEmpty then [] else [.line "drawPatterns();"]) := by
    split
    · exact .nil
    · exact Code.tidy_line (contextCall?_ofList rfl)
  have hpage := ((Code.tidy_line hcontext).cons_line
    (contextCall?_coordinate "canvas.height = " s.bounds.height)).cons_line
    (contextCall?_coordinate "canvas.width = " s.bounds.width)
  exact ((hpage.append htiles).append tidy_startCode).settles_block _ _

/-- A script with scopes that are in order settles in all of its blocks. -/
theorem settles_code (h : ∀ scope ∈ s.scopes, scope.Ordered)
    (hnames : ∀ tile ∈ s.tiles, Identifier.IsName tile.name) :
    Code.Settles o.contextName (s.code o) := by
  simp only [scopes, List.forall_mem_append, List.forall_mem_map] at h
  obtain ⟨⟨hsymbols, htiles⟩, hobjects⟩ := h
  have hobject : ∀ object ∈ s.objects, ∀ scope, object.scope? = some scope → scope.Ordered :=
    fun object hobject scope hscope =>
      hobjects scope (List.mem_filterMap.mpr ⟨object, hobject, hscope⟩)
  have hhead : Code.Settles o.contextName
      [.line "// Generated by canvas-export. Do not edit.", .blank] :=
    (Code.settles_line _).append Code.settles_blank
  have hbounds : Code.Settles o.contextName
      [.line ("export const bounds = " ++ s.bounds.literal ++ ";"), .blank] :=
    (Code.settles_line _).append Code.settles_blank
  -- the parts come in the order in which they are written
  unfold code
  exact (((((((((hhead.append settles_runtimeCode).append hbounds).append
    (Code.settles_flatMap fun f hf => SymbolFunction.settles (hsymbols f hf))).append
    (settles_tilesCode htiles hnames)).append
    (Code.settles_flatMap fun object hmem => DrawObject.settles (hobject object hmem))).append
    (Code.settles_flatMap fun path _ => path.settles)).append
    (settles_clocksCode s.clocks)).append settles_frameCode).append settles_renderCode).append
    settles_summaryCode

end Script

namespace Compiled

variable [CurveLibrary] {art : Artwork} {options : CompileOptions} {c : Compiled}

/-- A scope of a compiled document is in order. -/
theorem PaintsBody.ordered (hc : art.compile options = .ok c) {part : Part} {scope : Scope}
    (h : c.PaintsBody art part scope) : scope.Ordered := by
  obtain ⟨transform, active, hbody⟩ := h
  constructor
  · intro stmt hstmt
    rw [hbody] at hstmt
    obtain ⟨first, -, hfirst⟩ := List.mem_flatMap.mp hstmt
    obtain ⟨node, -, hnode⟩ := mem_paintFrom.mp hfirst
    exact Outline.ordinary_of_mem_ownStmts (Artwork.patternsNamed_of_compile hc).functions hnode
  · -- a list of siblings for each layer, and the statements of a node for each sibling
    rw [hbody, List.filterMap_flatMap]
    refine .flatMap fun first _ => ?_
    rw [paintFrom, List.filterMap_flatMap]
    exact .flatMap fun node _ => Outline.balanced_paintNode active c.outline.maxDepth node

/-- The scopes of every compiled document are ordered. -/
theorem ordered_scopes (hc : art.compile options = .ok c) :
    ∀ scope ∈ (c.outlineScript art).scopes, scope.Ordered := by
  intro scope hscope
  obtain ⟨part, -, hpaints⟩ := exists_paintsBody ⟨rfl, rfl, rfl⟩ hscope
  exact hpaints.ordered hc

/-- Hidden canvases have the names of patterns. -/
theorem isName_tileName (hc : art.compile options = .ok c) :
    ∀ tile ∈ (c.outlineScript art).tiles, Identifier.IsName tile.name := by
  refine List.forall_mem_map.mpr fun entry hentry => ?_
  obtain ⟨p, hp, hcanvas⟩ := List.mem_filterMap.mp hentry
  obtain ⟨canvas, -, rfl⟩ := Option.map_eq_some_iff.mp hcanvas
  exact Artwork.isName_patternName hc (List.mem_filter.mp hp).1

end Compiled

/-- Blocks are opened and closed, and states kept and gone back to, in a script that is nested. -/
structure Script.WellNested (s : Script) (o : EmitOptions) : Prop where
  /-- Of the calls that write the script, none closes a block on the outermost level, which is the
  last level too. -/
  blocks : CodeWriter.Nests (s.calls o)
  /-- In each block, the states that are kept are those that are gone back to. -/
  states : ∀ body ∈ Code.bodiesOf (s.code o), Balanced (Code.callsOf o.contextName body)
  /-- The lines of a scope do with the states what its statements do. -/
  scopes : ∀ scope ∈ s.scopes, Code.callsOf o.contextName (scope.code o.contextName) =
    scope.body.filterMap Stmt.delimiter?
  /-- The lines of a frame do so too. -/
  frame : ((s.frameBody o).flatMap (FrameStmt.lines o.contextName)).filterMap
    (contextCall? o.contextName) = (s.frameBody o).filterMap FrameStmt.delimiter?
  /-- The clock code, which is copied line by line, has nothing to do with them. -/
  clocks : ∀ line ∈ Runtime.lines, contextCall? o.contextName line = none

/-- Whatever art a host shows: if it can be compiled, a script is written for it, and that script is
nested. -/
theorem Artwork.script_wellNested [CurveLibrary] (art : Artwork) (options : CompileOptions)
    (c : Compiled) (hc : art.compile options = .ok c) :
    ∃ script, c.script art c.outline.renderer = .ok script ∧ ∀ o : EmitOptions,
      c.emit art o = .ok (CodeWriter.run {} (script.calls o)).text ∧
      script.WellNested o := by
  have hscript := c.script_outline art
  have hscopes := Compiled.ordered_scopes hc
  refine ⟨c.outlineScript art, hscript, fun o => ⟨Compiled.emit_of_script hscript o, ?_⟩⟩
  constructor
  · rw [Script.calls_eq]
    exact Code.nests_stepsOf _
  · exact Script.settles_code hscopes (Compiled.isName_tileName hc)
  · exact fun scope hscope => (hscopes scope hscope).callsOf_code
  · exact Script.filterMap_frameLines o _
  · exact Runtime.contextCall?_lines

namespace ArtDocument

/-- A layer with a chosen origin that holds nothing but a symbol. -/
def centredSymbol : ArtDocument where
  layers := #[{ name := "a(origin:center)", art := some 0 }]
  nodes := #[{ bounds := unitBox, kind := .symbol, symbol := some 0 }, { bounds := unitBox }]
  patterns := #[{ name := "dots", content := some 1 }]

/-- A state is kept for the symbol, another one for the layer in the frame, and within that a third
one for the mark of the origin. -/
theorem script_wellNested_centredSymbol :
    centredSymbol.Valid ∧ ∃ c script, centredSymbol.view.compile {} = .ok c ∧
      c.script centredSymbol.view c.outline.renderer = .ok script ∧
      script.scopes.map (fun scope => scope.body.filterMap Stmt.delimiter?) =
        [[], [.enter, .leave]] ∧
      (script.frameBody { debug := true }).filterMap FrameStmt.delimiter? =
        [.enter, .enter, .leave, .leave] ∧
      ∀ o : EmitOptions, script.WellNested o := by
  have hvalid : centredSymbol.Valid := by decide +kernel
  have hcompile : (centredSymbol.view.compile {}).toOption.any (fun c =>
      (c.script centredSymbol.view c.outline.renderer).toOption.any fun script => decide (
        script.scopes.map (fun scope => scope.body.filterMap Stmt.delimiter?) =
          [[], [.enter, .leave]] ∧
        (script.frameBody { debug := true }).filterMap FrameStmt.delimiter? =
          [.enter, .enter, .leave, .leave])) = true := by
    decide +kernel
  obtain ⟨c, hc, hscript⟩ := exists_ok_of_any hcompile
  obtain ⟨script, hscript, hstates⟩ := exists_ok_of_any hscript
  obtain ⟨hscopes, hframe⟩ := of_decide_eq_true hstates
  obtain ⟨script', hscript', hnested⟩ := Artwork.script_wellNested centredSymbol.view {} c hc
  cases hscript.symm.trans hscript'
  exact ⟨hvalid, c, script, hc, hscript, hscopes, hframe, fun o => (hnested o).2⟩

end ArtDocument

end ArtCanvas
