import ArtCanvas.Proofs.Compile.Drawn
import ArtCanvas.Proofs.Scan.Effect
import ArtCanvas.Proofs.Scan.Uses
import ArtCanvas.Proofs.Script.Painted
import ArtCanvas.Proofs.Script.Written

/-!
# Calls of symbol functions

A script paints a symbol by a call of a function, which it declares for the patterns that were first
used by a symbol. The calls are written for all nodes that place a pattern in use.

* `Script.CallsSymbol`, `Script.DeclaresSymbol`: the functions that are called and those that are
  declared, under the names that are written.
* `Outline.callSymbol_mem_ownStmts`: the calls among the statements of a node.
* `Artwork.declaresSymbol_iff`: a function is declared for a pattern exactly if the pattern counts
  as a symbol.
* `Artwork.symbolCall_declared_iff`: a function that is called is declared exactly if the first use
  of its pattern places it.
-/

namespace ArtCanvas

/-- The function that a statement calls to paint a symbol. -/
def Stmt.callee? : Stmt → Option String
  | .callSymbol function => some function
  | _ => none

/-- The statements of one form among others are found by reading the others for what makes them. -/
theorem Stmt.mem_iff_mem_filterMap {α : Type} {make : α → Stmt} {read : Stmt → Option α}
    (hread : ∀ stmt a, read stmt = some a ↔ stmt = make a) {a : α} {body : List Stmt} :
    make a ∈ body ↔ a ∈ body.filterMap read := by
  simp [List.mem_filterMap, hread]

theorem Stmt.callSymbol_mem_iff {name : String} {body : List Stmt} :
    .callSymbol name ∈ body ↔ name ∈ body.filterMap Stmt.callee? :=
  mem_iff_mem_filterMap fun stmt _ => by cases stmt <;> simp [callee?]

/-- Whether a body calls a symbol is found out by searching it. -/
instance (name : String) (body : List Stmt) : Decidable (.callSymbol name ∈ body) :=
  decidable_of_iff _ Stmt.callSymbol_mem_iff.symm

namespace Script

/-- Some scope of the script calls a function to paint a symbol. -/
def CallsSymbol (s : Script) (name : String) : Prop :=
  ∃ scope ∈ s.scopes, .callSymbol name ∈ scope.body

/-- The script declares a function that paints a symbol. Its name is escaped where it is declared.
-/
def DeclaresSymbol (s : Script) (name : String) : Prop :=
  ∃ f ∈ s.symbols, Identifier.escape f.name = name

/-- Whether a script calls a symbol is found out by searching its scopes. -/
instance (s : Script) (name : String) : Decidable (s.CallsSymbol name) :=
  inferInstanceAs (Decidable (∃ scope ∈ s.scopes, .callSymbol name ∈ scope.body))

/-- Whether it declares one is found out by searching its symbols. -/
instance (s : Script) (name : String) : Decidable (s.DeclaresSymbol name) :=
  inferInstanceAs (Decidable (∃ f ∈ s.symbols, Identifier.escape f.name = name))

end Script

namespace Outline

variable {o : Outline} {art : Artwork} {transform : Affine Float} {active : Option Nat}
  {node : Nat} {name : String}

/-- Painting an outline calls nothing. -/
theorem callSymbol_not_mem_paintOutline :
    .callSymbol name ∉ o.paintOutline art transform node := by
  intro hmem
  rcases cases_of_mem_paintOutline hmem with ⟨path, heq⟩ | hpaint | hfill | hstroke | ⟨width, heq⟩
  · cases heq
  · cases hpaint
  · cases hfill
  · cases hstroke
  · cases heq

/-- A symbol is painted by a call, unless it stands in its own art or its pattern is not in use. -/
theorem callSymbol_mem_paintSymbol :
    .callSymbol name ∈ o.paintSymbol art transform active node ↔
      ∃ handle p, art.symbolPattern node = some handle ∧ active ≠ some handle ∧
        o.patterns.find? handle = some p ∧ p.functionName = name := by
  unfold paintSymbol
  cases hsymbol : art.symbolPattern node with
  | none => simp
  | some handle =>
    dsimp only
    split
    next hactive => simp [hactive]
    next hactive =>
      cases hfind : o.patterns.find? handle with
      | none => simp [hfind]
      | some p =>
        unfold callSymbol
        dsimp only
        split <;> simp [hactive, hfind, eq_comm]

/-- The calls among the statements of a node: a node that places a pattern in use calls the function
of that pattern, unless it stands in the art of the same pattern. -/
theorem callSymbol_mem_ownStmts :
    .callSymbol name ∈ o.ownStmts art transform active node ↔
      ∃ handle p, art.Places node handle ∧ active ≠ some handle ∧
        o.patterns.find? handle = some p ∧ p.functionName = name := by
  -- what is written around the statements for opacity calls nothing
  have hopacity : .callSymbol name ∈ o.ownStmts art transform active node ↔
      .callSymbol name ∈ o.paintSelf art transform active node := by
    simp [ownStmts, mem_withOpacity]
  rw [hopacity]
  unfold paintSelf Artwork.Places
  cases hkind : art.kind node with
  | plain => simp [callSymbol_not_mem_paintOutline]
  | symbol => simp [callSymbol_mem_paintSymbol]
  | pluginGroup => simp

end Outline

namespace Compiled

variable {c : Compiled} {art : Artwork} {script : Script}

theorem mem_paintFrom {transform : Affine Float} {active first : Option Nat} {stmt : Stmt} :
    stmt ∈ c.paintFrom art transform active first ↔
      ∃ node ∈ art.paintTour c.outline.maxDepth first,
        stmt ∈ c.outline.ownStmts art transform active node :=
  Outline.mem_paintSiblings

/-- All that is called is the function of a pattern in use. -/
theorem Written.exists_pattern_of_callsSymbol (h : c.Written art script) {name : String}
    (hcalls : script.CallsSymbol name) : ∃ p ∈ c.patterns.patterns, p.functionName = name := by
  -- whatever the scope is, its statements are those of lists of siblings
  have hfrom : ∀ {transform active first},
      .callSymbol name ∈ c.paintFrom art transform active first →
        ∃ p ∈ c.patterns.patterns, p.functionName = name := by
    intro transform active first hmem
    obtain ⟨node, -, hnode⟩ := mem_paintFrom.mp hmem
    obtain ⟨handle, p, -, -, hfind, hname⟩ := Outline.callSymbol_mem_ownStmts.mp hnode
    exact ⟨p, List.mem_of_find?_eq_some hfind, hname⟩
  obtain ⟨scope, hscope, hcall⟩ := hcalls
  rw [Script.scopes, h.symbols, h.tiles, h.objects, List.mem_append, List.mem_append] at hscope
  rcases hscope with (hsymbol | htile) | hobject
  · obtain ⟨f, hf, rfl⟩ := List.mem_map.mp hsymbol
    obtain ⟨p, -, rfl⟩ := List.mem_map.mp hf
    exact hfrom hcall
  · obtain ⟨t, ht, rfl⟩ := List.mem_map.mp htile
    obtain ⟨entry, -, rfl⟩ := List.mem_map.mp ht
    exact hfrom hcall
  · obtain ⟨o, ho, hscope⟩ := List.mem_filterMap.mp hobject
    obtain ⟨entry, -, rfl⟩ := List.mem_map.mp ho
    unfold outlineObject DrawObject.scope? at hscope
    cases hfile : entry.2.imageFile with
    | some file => simp [hfile] at hscope
    | none =>
      simp only [hfile, Option.some.injEq] at hscope
      subst hscope
      obtain ⟨i, -, hmem⟩ := List.mem_flatMap.mp hcall
      exact hfrom hmem

end Compiled

namespace Artwork

variable {art : Artwork} {options : CompileOptions} {c : Compiled} {script : Script}

/-- The patterns of a compiled document: none is there twice, their names and the names of their
functions are as they are made, and they are symbols exactly if their first use places them. -/
structure PatternsNamed (art : Artwork) (options : CompileOptions) (t : PatternTable) : Prop where
  handles : t.handles.Nodup
  names : t.names.Nodup
  functions : ∀ p ∈ t.patterns, p.HasFunctionName
  roles : ∀ p ∈ t.patterns, ∃ use ∈ (art.scan options.maxDepth).2.firstUses,
    use.handle = p.handle ∧ (p.isSymbol = true ↔ art.Places use.node p.handle)

theorem patternsNamed_of_compile [CurveLibrary] (hc : art.compile options = .ok c) :
    art.PatternsNamed options c.patterns := by
  have hintroduced := art.introduced_scan options.maxDepth
  obtain ⟨regs, heffect⟩ := art.effect_scan options.maxDepth
  have hhandles : (art.scan options.maxDepth).2.patterns.handles.Nodup := by
    rw [show (art.scan options.maxDepth).2.patterns.handles = regs.map (·.handle) from
      heffect.handles]
    exact heffect.distinct
  rw [(drawn_of_compile hc).2.2.1]
  constructor
  · rwa [PatternTable.handles, PatternTable.map_nameSymbols fun _ _ => rfl]
  · rw [PatternTable.names, PatternTable.map_nameSymbols fun _ _ => rfl]
    exact hintroduced.names
  · intro q hq
    obtain ⟨p, hp, hnamed⟩ := PatternTable.exists_of_mem_nameSymbols hq
    exact hnamed.hasFunctionName (hintroduced.unnamed p hp)
  · intro q hq
    obtain ⟨p, hp, hnamed⟩ := PatternTable.exists_of_mem_nameSymbols hq
    obtain ⟨symbolFunction, rfl⟩ := hnamed.exists_eq
    have huse := hintroduced.exists_use hp
    exact huse

/-- Different patterns have different functions. -/
theorem PatternsNamed.functionName_inj {t : PatternTable} (h : art.PatternsNamed options t)
    {p q : Pattern} (hp : p ∈ t.patterns) (hq : q ∈ t.patterns)
    (hname : p.functionName = q.functionName) : p = q :=
  PatternTable.functionName_injOn h.names h.functions hp hq hname

/-- A script declares the function of a pattern exactly if the pattern counts as a symbol. -/
theorem declaresSymbol_iff (h : art.PatternsNamed options c.patterns)
    (hwritten : c.Written art script) {p : Pattern} (hp : p ∈ c.patterns.patterns) :
    script.DeclaresSymbol p.functionName ↔ p.isSymbol = true := by
  rw [Script.DeclaresSymbol, hwritten.symbols]
  constructor
  · rintro ⟨f, hf, hname⟩
    obtain ⟨q, hq, rfl⟩ := List.mem_map.mp hf
    obtain ⟨hq, hsymbol⟩ := List.mem_filter.mp hq
    -- the name is written as it is, and it is the name of one pattern only
    have hwritten : Identifier.escape q.functionName = p.functionName := hname
    rw [(h.functions q hq).escape] at hwritten
    rwa [← h.functionName_inj hq hp hwritten]
  · intro hsymbol
    exact ⟨c.outlineSymbol art p, List.mem_map.mpr ⟨p, List.mem_filter.mpr ⟨hp, hsymbol⟩, rfl⟩,
      (h.functions p hp).escape⟩

/-- Whatever art a host shows: if it can be compiled, a script is written for it, and all functions
that the script calls to paint a symbol are those of patterns in use. Such a function is declared
exactly if the first use of its pattern places it, so that calls of patterns that were first used as
a paint are left without a function. -/
theorem symbolCall_declared_iff [CurveLibrary] (art : Artwork) (options : CompileOptions)
    (c : Compiled) (hc : art.compile options = .ok c) :
    ∃ script, c.script art c.outline.renderer = .ok script ∧
      (∀ o : EmitOptions, c.emit art o = .ok (script.text o)) ∧
      ∀ name, script.CallsSymbol name →
        ∃ p ∈ c.patterns.patterns, p.functionName = name ∧
          ∃ use ∈ (art.scan options.maxDepth).2.firstUses, use.handle = p.handle ∧
            (script.DeclaresSymbol name ↔ art.Places use.node p.handle) := by
  have hnamed := patternsNamed_of_compile hc
  obtain ⟨script, hscript, hwritten⟩ := c.exists_script art
  refine ⟨script, hscript, Compiled.emit_of_script hscript, fun name hcalls => ?_⟩
  obtain ⟨p, hp, rfl⟩ := hwritten.exists_pattern_of_callsSymbol hcalls
  obtain ⟨use, huse, hhandle, hrole⟩ := hnamed.roles p hp
  exact ⟨p, hp, rfl, use, huse, hhandle, (declaresSymbol_iff hnamed hwritten hp).trans hrole⟩

end Artwork

namespace ArtDocument

/-- A node that is painted with a pattern, and a symbol that places it, in either order. -/
def dots (placedFirst : Bool) : ArtDocument where
  layers := #[{ name := "a", art := some 0 }]
  nodes :=
    if placedFirst then
      #[{ bounds := unitBox, kind := .symbol, symbol := some 0, nextSibling := some 1 },
        { bounds := unitBox, fill := .pattern 0 }, { bounds := unitBox }]
    else
      #[{ bounds := unitBox, fill := .pattern 0, nextSibling := some 1 },
        { bounds := unitBox, kind := .symbol, symbol := some 0 }, { bounds := unitBox }]
  patterns := #[{ name := "dots", content := some 2 }]

/-- With the symbol first, the function that is called is declared. -/
theorem symbolCall_declared_placedFirst :
    (dots true).Valid ∧ ∃ c script, (dots true).view.compile {} = .ok c ∧
      c.script (dots true).view c.outline.renderer = .ok script ∧
      script.CallsSymbol "dotsSymbol" ∧ script.DeclaresSymbol "dotsSymbol" := by
  have hvalid : (dots true).Valid := by decide +kernel
  have hcompile : ((dots true).view.compile {}).toOption.any (fun c =>
      (c.script (dots true).view c.outline.renderer).toOption.any fun script =>
        script.CallsSymbol "dotsSymbol") = true := by decide +kernel
  have huses : ((dots true).view.scan 256).2.firstUses = [⟨0, 0⟩] := by decide +kernel
  obtain ⟨c, hc, hscript⟩ := exists_ok_of_any hcompile
  obtain ⟨script, hscript, hcalls⟩ := exists_ok_of_any hscript
  have hcalls : script.CallsSymbol "dotsSymbol" := of_decide_eq_true hcalls
  refine ⟨hvalid, c, script, hc, hscript, hcalls, ?_⟩
  obtain ⟨script', hscript', -, hdeclared⟩ :=
    Artwork.symbolCall_declared_iff (dots true).view {} c hc
  cases hscript.symm.trans hscript'
  obtain ⟨p, -, -, use, huse, hhandle, hiff⟩ := hdeclared "dotsSymbol" hcalls
  -- the only first use is that of the symbol
  rw [huses, List.mem_singleton] at huse
  subst huse
  rw [hiff, ← hhandle]
  exact ⟨by decide, by decide⟩

/-- With the paint first, the function that is called is not declared. -/
theorem symbolCall_not_declared_paintedFirst :
    (dots false).Valid ∧ ∃ c script, (dots false).view.compile {} = .ok c ∧
      c.script (dots false).view c.outline.renderer = .ok script ∧
      ∃ name, script.CallsSymbol name ∧ ¬ script.DeclaresSymbol name := by
  have hvalid : (dots false).Valid := by decide +kernel
  have hcompile : ((dots false).view.compile {}).toOption.any (fun c =>
      (c.script (dots false).view c.outline.renderer).toOption.any fun script =>
        script.CallsSymbol "dotsSymbol" ∧ ¬ script.DeclaresSymbol "dotsSymbol") = true := by
    decide +kernel
  obtain ⟨c, hc, hscript⟩ := exists_ok_of_any hcompile
  obtain ⟨script, hscript, hcalls⟩ := exists_ok_of_any hscript
  exact ⟨hvalid, c, script, hc, hscript, "dotsSymbol", of_decide_eq_true hcalls⟩

end ArtDocument

end ArtCanvas
