import ArtCanvas.Proofs.Script.CallLines

/-!
# Symbol functions and hidden canvases in the code of a script

Which functions a script calls and declares, which of them call each other, and in which order it
paints the hidden canvases is said of its parts. Here the same is read off its code.

* `functionBy`: the function that a line declares.
* `Script.functionNames_code`: the functions that a script declares.
* `Script.mem_calledNames_bodyOf_iff`: the functions that the lines of a function call.
* `Script.tileNames_code`: the hidden canvases, in the order of their blocks.
* `Artwork.symbols_of_code`: all of this for a compiled document.
-/

namespace ArtCanvas

open Identifier (isWordChar EndsWord)

/-! ### Functions that are declared -/

/-- The function that a line declares. -/
def functionBy (line : String) : Option String :=
  (line.toList.dropPrefix? "function ".toList).map fun rest =>
    String.ofList (rest.takeWhile isWordChar)

namespace Code

/-- The function that a piece of code declares. -/
def function? : Code → Option String
  | .line text => functionBy text
  | .blank => none
  | .block opening _ _ => functionBy opening

/-- The functions that pieces of code declare, without those that are exported. -/
def functionNames (code : List Code) : List String := code.filterMap function?

/-- The functions of two parts follow each other. -/
theorem functionNames_append (code code' : List Code) :
    functionNames (code ++ code') = functionNames code ++ functionNames code' :=
  List.filterMap_append

end Code

/-- A line that starts a function with a word declares it. -/
theorem functionBy_of_start {name rest : String} (hname : name.toList.all isWordChar = true)
    (hrest : EndsWord rest) : functionBy ("function " ++ (name ++ rest)) = some name := by
  have hprefix : ("function " ++ (name ++ rest)).toList.dropPrefix? "function ".toList =
      some (name.toList ++ rest.toList) := by
    rw [String.toList_append, String.toList_append]
    exact List.dropPrefix?_append_of_beq _ BEq.rfl
  rw [functionBy, hprefix, Option.map_some, Identifier.takeWhile_word hname hrest,
    String.ofList_toList]

/-- A function that a line declares is what the line declares. -/
theorem declaredBy_of_functionBy {line name : String} (h : functionBy line = some name) :
    declaredBy line = some name := by
  obtain ⟨rest, hprefix, rfl⟩ := Option.map_eq_some_iff.mp h
  have hline : line = "function " ++ (String.ofList (rest.takeWhile isWordChar) ++
      String.ofList (rest.dropWhile isWordChar)) := by
    rw [← String.ofList_append, List.takeWhile_append_dropWhile, ← String.toList_inj,
      ClockLine.dropPrefix?_eq_some hprefix, String.toList_append, String.toList_ofList,
      String.toList_ofList]
  have hend : EndsWord (String.ofList (rest.dropWhile isWordChar)) := by
    intro c cs hchars
    have hhead := List.head?_dropWhile_not isWordChar rest
    rw [String.toList_ofList] at hchars
    rw [hchars] at hhead
    simpa using hhead
  rw [hline]
  exact declaredBy_of_start mem_declarationStarts.1
    (by rw [String.toList_ofList]; exact List.all_takeWhile) hend

/-- The characters differ from the beginning of a function. -/
def beginsNoFunction (line : List Char) : Bool :=
  !line.isPrefixOf "function ".toList && !"function ".toList.isPrefixOf line

/-- A line that begins otherwise declares no function, whatever comes after. -/
theorem functionBy_of_begins {front : List Char} (h : beginsNoFunction front = true)
    (rest : String) : functionBy (String.ofList front ++ rest) = none := by
  rw [functionBy, Option.map_eq_none_iff, Option.eq_none_iff_forall_ne_some]
  intro behind hprefix
  have hline := ClockLine.dropPrefix?_eq_some hprefix
  rw [String.toList_append, String.toList_ofList] at hline
  simp only [beginsNoFunction, Bool.and_eq_true, Bool.not_eq_true', Bool.eq_false_iff, ne_eq,
    List.isPrefixOf_iff_prefix] at h
  rcases List.prefix_or_prefix_of_prefix (List.prefix_append front rest.toList)
    ⟨behind, hline.symm⟩ with hfront | hword
  · exact h.1 hfront
  · exact h.2 hword

namespace Code

/-- What pieces of code declare as functions is among what they declare. -/
theorem functionNames_subset (code : List Code) : functionNames code ⊆ declaredNames code := by
  intro name hname
  obtain ⟨piece, hpiece, hfunction⟩ := List.mem_filterMap.mp hname
  refine List.mem_filterMap.mpr ⟨piece, hpiece, ?_⟩
  cases piece with
  | line | block => exact declaredBy_of_functionBy hfunction
  | blank => cases hfunction

/-- Where no function is declared, none has a block. -/
theorem bodyOf_functionBy_eq_nil {code : List Code} (h : functionNames code = []) (name : String) :
    bodyOf functionBy name code = [] := by
  refine bodyOf_eq_nil fun opening body closing hpiece hname => ?_
  have hmem : name ∈ functionNames code := List.mem_filterMap.mpr ⟨_, hpiece, hname⟩
  rw [h] at hmem
  cases hmem

end Code

namespace Script

variable {o : EmitOptions} {s : Script} {ctx : String}

/-- The first line of a symbol function declares it. -/
theorem functionBy_functionLine {name : String} (h : Identifier.IsName name) :
    functionBy ("function " ++ functionLine (Identifier.escape name) ctx) =
      some (Identifier.escape name) := by
  simp only [functionLine, String.append_assoc]
  exact functionBy_of_start h.all_escape (Identifier.endsWord_append rfl _)

/-- Each symbol declares its function. -/
theorem functionNames_symbols {symbols : List SymbolFunction}
    (h : ∀ f ∈ symbols, Identifier.IsName f.name) :
    Code.functionNames (symbols.flatMap (SymbolFunction.code ctx)) =
      symbols.map fun f => Identifier.escape f.name := by
  rw [Code.functionNames, List.filterMap_flatMap, List.map_eq_flatMap]
  refine List.flatMap_congr fun f hf => ?_
  have hline : functionBy ("function " ++ functionLine (Identifier.escape f.name) ctx) =
      some (Identifier.escape f.name) := functionBy_functionLine (h f hf)
  simp [SymbolFunction.code, Code.function?, hline]

/-- The function that paints the hidden canvases is not counted: it is the script's own. -/
theorem functionNames_tilesCode (tiles : List Tile) :
    Code.functionNames (tilesCode ctx tiles) = [] := by
  have hline : functionBy "export function drawPatterns(): void \x7b" = none := rfl
  unfold tilesCode
  split
  · rfl
  · simp [Code.functionNames, Code.function?, hline]

/-- The object of a draw function is a constant. -/
theorem functionNames_object {object : DrawObject} (h : Identifier.IsName object.function) :
    Code.functionNames (object.code ctx) = [] := by
  have hline : functionBy ("export const " ++ Identifier.escape object.function ++ " = \x7b") =
      none := by
    rw [String.append_assoc]
    exact functionBy_of_begins rfl _
  have hsource : ∀ file : String, functionBy (Identifier.escape object.function ++
      ".image.src = " ++ Text.quote file ++ ";") = none := by
    intro file
    rw [Option.eq_none_iff_forall_ne_some]
    intro name hname
    -- nothing else is declared there either
    have hnone := declaredBy_of_functionBy hname
    simp only [String.append_assoc] at hnone
    rw [declaredBy_of_word h.all_escape (Identifier.endsWord_append rfl _) (by simp)] at hnone
    cases hnone
  unfold DrawObject.code
  dsimp only
  cases object.file? <;> simp [Code.functionNames, Code.function?, hline, hsource]

/-- So is that of a path. -/
theorem functionNames_path (path : PathObject) : Code.functionNames path.code = [] := by
  have hline : functionBy path.opening = none := by
    rw [PathObject.opening, String.append_assoc]
    exact functionBy_of_begins rfl _
  simp [Code.functionNames, PathObject.code, Code.function?, hline]

/-- So are clocks. -/
theorem functionNames_clocksCode (clocks : List ClockObject) :
    Code.functionNames (clocksCode clocks) = [] := by
  have hline : ∀ clock : ClockObject, functionBy clock.declaration = none := by
    intro clock
    simp only [ClockObject.declaration, String.append_assoc]
    exact functionBy_of_begins rfl _
  unfold clocksCode
  split
  · rfl
  · simp [Code.functionNames, Code.function?, hline]

/-- The function that paints a frame is the script's own. -/
theorem functionNames_frameCode : Code.functionNames (s.frameCode o) = [] := by
  have hline : functionBy ("export function " ++ functionLine "drawFrame" o.contextName) = none :=
    functionBy_of_begins rfl _
  simp [Code.functionNames, frameCode, Code.function?, hline]

/-- So is the one that starts the script, which is exported besides. -/
theorem functionNames_renderCode : Code.functionNames (s.renderCode o) = [] := by
  have hline : functionBy ("export function render(canvas: HTMLCanvasElement = " ++
      canvasExpression o.canvasId ++ "): void \x7b") = none := by
    rw [String.append_assoc]
    exact functionBy_of_begins rfl _
  simp [Code.functionNames, renderCode, Code.function?, hline]

/-- Remarks declare no function. -/
theorem functionNames_summaryCode : Code.functionNames (s.summaryCode o) = [] := by
  have hline : ∀ text : String, functionBy ("// " ++ text) = none := fun text =>
    functionBy_of_begins rfl text
  unfold summaryCode
  split
  · simp [Code.functionNames, Code.function?, hline]
  · rfl

/-- Besides the clock code, functions are declared by the symbol functions only. -/
theorem exists_code_eq (h : s.PartsNamed) (o : EmitOptions) :
    ∃ opening bounds behind, s.code o = opening ++ s.runtimeCode o ++ bounds ++
        s.symbols.flatMap (SymbolFunction.code o.contextName) ++ behind ∧
      Code.functionNames opening = [] ∧ Code.functionNames bounds = [] ∧
      Code.functionNames behind = [] := by
  have hobjects : Code.functionNames
      (s.objects.flatMap (DrawObject.code o.contextName)) = [] := by
    rw [Code.functionNames, List.filterMap_flatMap, List.flatMap_eq_nil_iff]
    exact fun object hobject => functionNames_object (h.objects object hobject)
  have hpaths : Code.functionNames (s.paths.flatMap PathObject.code) = [] := by
    rw [Code.functionNames, List.filterMap_flatMap, List.flatMap_eq_nil_iff]
    exact fun path _ => functionNames_path path
  have hbounds : functionBy ("export const bounds = " ++ s.bounds.literal ++ ";") = none := by
    rw [String.append_assoc]
    exact functionBy_of_begins rfl _
  -- behind the symbols there are constants and exported functions only
  refine ⟨[.line "// Generated by canvas-export. Do not edit.", .blank],
    [.line ("export const bounds = " ++ s.bounds.literal ++ ";"), .blank],
    tilesCode o.contextName s.tiles ++ (s.objects.flatMap (DrawObject.code o.contextName) ++
      (s.paths.flatMap PathObject.code ++ (clocksCode s.clocks ++ (s.frameCode o ++
        (s.renderCode o ++ s.summaryCode o))))), ?_, rfl, ?_, ?_⟩
  · unfold code
    simp only [List.append_assoc]
  · simp [Code.functionNames, Code.function?, hbounds]
  · simp only [Code.functionNames_append, functionNames_tilesCode, hobjects, hpaths,
      functionNames_clocksCode, functionNames_frameCode, functionNames_renderCode,
      functionNames_summaryCode, List.append_nil]

/-- The functions that a script declares are those of the clock code and those for symbols. -/
theorem functionNames_code (h : s.PartsNamed) (o : EmitOptions) :
    Code.functionNames (s.code o) =
      Code.functionNames (s.runtimeCode o) ++ s.symbols.map fun f => Identifier.escape f.name := by
  obtain ⟨opening, bounds, behind, hcode, hopening, hbounds, hbehind⟩ := exists_code_eq h o
  simp only [hcode, Code.functionNames_append, hopening, hbounds, hbehind,
    functionNames_symbols h.symbols, List.nil_append, List.append_nil]

/-- Besides the functions that every script has, a script declares those for symbols. -/
theorem mem_functionNames_iff (h : s.PartsNamed) {name : String} (hname : name ∉ ownNames) :
    name ∈ Code.functionNames (s.code o) ↔ s.DeclaresSymbol name := by
  have hruntime : name ∉ Code.functionNames (s.runtimeCode o) := by
    intro hmem
    have hdeclared := Code.functionNames_subset _ hmem
    rw [declaredNames_runtimeCode] at hdeclared
    refine hname ?_
    obtain ⟨-, hmem⟩ := List.mem_ite_nil_right.mp hdeclared
    simp only [ownNames, List.mem_append, hmem, true_or]
  rw [functionNames_code h, List.mem_append, DeclaresSymbol, List.mem_map]
  simp only [hruntime, false_or]

/-- What is in the functions with a name is what the symbol functions do that have it. -/
theorem bodyOf_functionBy (h : s.PartsNamed) (o : EmitOptions) (name : String) :
    Code.bodyOf functionBy name (s.code o) = s.symbols.flatMap fun f =>
      if Identifier.escape f.name = name then f.scope.code o.contextName else [] := by
  obtain ⟨opening, bounds, behind, hcode, hopening, hbounds, hbehind⟩ := exists_code_eq h o
  have hruntime : Code.bodyOf functionBy name (s.runtimeCode o) = [] := by
    -- the clock code has no blocks
    unfold runtimeCode
    split
    · refine Code.bodyOf_eq_nil fun opening body closing hpiece => ?_
      simp at hpiece
    · rfl
  have hsymbols : Code.bodyOf functionBy name
      (s.symbols.flatMap (SymbolFunction.code o.contextName)) = s.symbols.flatMap fun f =>
        if Identifier.escape f.name = name then f.scope.code o.contextName else [] := by
    rw [Code.bodyOf, List.flatMap_assoc]
    refine List.flatMap_congr fun f hf => ?_
    rw [SymbolFunction.code, List.flatMap_cons, Code.bodyIn,
      functionBy_functionLine (h.symbols f hf)]
    simp only [Option.some.injEq]
    exact List.append_nil _
  simp only [hcode, Code.bodyOf_append, Code.bodyOf_functionBy_eq_nil hopening,
    Code.bodyOf_functionBy_eq_nil hbounds, Code.bodyOf_functionBy_eq_nil hbehind, hruntime,
    hsymbols, List.nil_append, List.append_nil]

/-- The lines of a symbol function call the functions that the symbol function calls. -/
theorem mem_calledNames_bodyOf_iff (h : s.NamesFunctions o) {name callee : String} :
    callee ∈ Code.calledNames o.contextName (Code.bodyOf functionBy name (s.code o)) ↔
      s.Calls name callee := by
  have hcalls : Code.calledNames o.contextName (s.symbols.flatMap fun f =>
      if Identifier.escape f.name = name then f.scope.code o.contextName else []) =
        s.symbols.flatMap fun f =>
          if Identifier.escape f.name = name then f.scope.body.filterMap Stmt.callee? else [] := by
    refine Code.calledNames_flatMap fun f hf => ?_
    split
    · refine Scope.calledNames_code (h.scopes _ ?_)
      exact List.mem_append_left _ (List.mem_append_left _ (List.mem_map_of_mem hf))
    · rfl
  rw [bodyOf_functionBy h.parts, hcalls]
  simp only [List.mem_flatMap, List.mem_ite_nil_right, Calls, Stmt.callSymbol_mem_iff]

end Script

/-! ### Hidden canvases -/

namespace Code

/-- The name that the first line of a block declares. -/
def firstName? : Code → Option String
  | .block _ (.line text :: _) _ => declaredBy text
  | _ => none

/-- The hidden canvases, in the order of the blocks that paint them. -/
def tileNames (code : List Code) : List String :=
  (bodyOf declaredBy "drawPatterns" code).filterMap firstName?

end Code

namespace Script

variable {o : EmitOptions} {s : Script}

/-- The first line of the block for a hidden canvas declares the canvas. -/
theorem firstName?_tile (ctx : String) (tile : Tile) :
    (tile.code ctx).filterMap Code.firstName? = [s!"canvas{tile.canvas}"] := by
  have hconst : "const " ∈ declarationStarts := by simp [declarationStarts, declarationWords]
  have hline : declaredBy ("const " ++ s!"canvas{tile.canvas}" ++ " = " ++
      canvasExpression (tileElement tile.canvas) ++ ";") = some s!"canvas{tile.canvas}" := by
    rw [String.append_assoc, String.append_assoc, String.append_assoc]
    exact declaredBy_of_start hconst (Tile.all_isWordChar_canvas tile.canvas)
      (Identifier.endsWord_append rfl _)
  rw [Tile.code, List.filterMap_cons_none rfl]
  exact List.filterMap_cons_some hline

/-- A script without hidden canvases has no function that paints them. -/
theorem drawPatterns_not_mem_declaredNames (h : s.PartsNamed) (htiles : s.tiles = []) :
    "drawPatterns" ∉ Code.declaredNames (s.code o) := by
  have hfixed : "drawPatterns" ∉ s.fixedNames o := by
    unfold fixedNames
    split <;> simp [htiles, Runtime.names_eq]
  rw [declaredNames_code h, perm_moduleNames.mem_iff, List.mem_append]
  rintro (hmem | hmem)
  · exact hfixed hmem
  · obtain ⟨name, hname, heq⟩ := List.mem_map.mp hmem
    have hown : "drawPatterns" ∈ ownNames := by simp [ownNames]
    exact (h.isName_madeNames hname).escape_ne (reserved_of_mem_ownNames hown) heq

/-- The blocks for the hidden canvases stand in the order of the canvases. -/
theorem tileNames_code (h : s.PartsNamed) (o : EmitOptions) :
    Code.tileNames (s.code o) = s.tileOrder.map fun canvas => s!"canvas{canvas}" := by
  by_cases htiles : s.tiles = []
  · rw [Code.tileNames, Code.bodyOf_declaredBy_eq_nil (drawPatterns_not_mem_declaredNames h htiles),
      tileOrder, htiles]
    rfl
  · have hempty : s.tiles.isEmpty = false := by simpa using htiles
    have hopening : Code.declaredNames (tilesCode o.contextName s.tiles) = ["drawPatterns"] := by
      rw [declaredNames_tiles, if_neg (by simp [hempty])]
    have hfixed : "drawPatterns" ∈ s.fixedNames o := by simp [fixedNames, hempty]
    have hcode : s.code o =
        [.line "// Generated by canvas-export. Do not edit.", .blank] ++ s.runtimeCode o ++
          [.line ("export const bounds = " ++ s.bounds.literal ++ ";"), .blank] ++
          s.symbols.flatMap (SymbolFunction.code o.contextName) ++
          tilesCode o.contextName s.tiles ++
          (s.objects.flatMap (DrawObject.code o.contextName) ++ s.paths.flatMap PathObject.code ++
            clocksCode s.clocks ++ s.frameCode o ++ s.renderCode o ++ s.summaryCode o) := by
      unfold code
      simp only [List.append_assoc]
    -- the canvases are in the body of the one function that paints them
    have hbody : Code.bodyOf declaredBy "drawPatterns" (tilesCode o.contextName s.tiles) =
        s.tiles.flatMap (Tile.code o.contextName) := by
      rw [tilesCode, if_neg (by simp [hempty]), Code.bodyOf, List.flatMap_cons, Code.bodyIn,
        if_pos declaredBy_drawPatterns]
      exact List.append_nil _
    rw [Code.tileNames, bodyOf_eq_of_mem_fixedNames h hfixed hcode
      (by rw [hopening]; exact List.mem_singleton_self _), hbody, List.filterMap_flatMap, tileOrder,
      List.map_map, List.map_eq_flatMap]
    exact List.flatMap_congr fun tile _ => firstName?_tile o.contextName tile

end Script

/-- Whatever art a host shows: if it can be compiled, the text that is emitted for it is that of
code off which it can be read what is said of symbols and hidden canvases. The lines of the code
call, and declare as functions, exactly the symbol functions that the script is said to call and to
declare; the lines of a symbol function call those that it is said to call; and the blocks for the
hidden canvases stand in the order that is said. -/
theorem Artwork.symbols_of_code [CurveLibrary] (art : Artwork) (options : CompileOptions)
    (c : Compiled) (hc : art.compile options = .ok c) :
    ∃ script, c.script art c.outline.renderer = .ok script ∧
      ∀ o : EmitOptions, c.emit art o = .ok (Code.render (script.code o)) ∧
        (∀ p ∈ c.patterns.patterns,
          (p.functionName ∈ Code.calledNames o.contextName (script.code o) ↔
            script.CallsSymbol p.functionName) ∧
          (p.functionName ∈ Code.functionNames (script.code o) ↔
            script.DeclaresSymbol p.functionName) ∧
          ∀ callee, callee ∈ Code.calledNames o.contextName
              (Code.bodyOf functionBy p.functionName (script.code o)) ↔
            script.Calls p.functionName callee) ∧
        Code.tileNames (script.code o) = script.tileOrder.map fun canvas => s!"canvas{canvas}" := by
  have hscript := Compiled.script_outline c art
  refine ⟨c.outlineScript art, hscript, fun o => ?_⟩
  have hnames := Compiled.namesFunctions hc o
  have htext := Compiled.emit_of_script hscript o
  rw [Script.text_eq] at htext
  refine ⟨htext, fun p hp => ?_, Script.tileNames_code hnames.parts o⟩
  have hown := ((patternsNamed_of_compile hc).functions p hp).not_mem_ownNames
  exact ⟨Script.mem_calledNames_iff hnames hown, Script.mem_functionNames_iff hnames.parts hown,
    fun _ => Script.mem_calledNames_bodyOf_iff hnames⟩

end ArtCanvas
