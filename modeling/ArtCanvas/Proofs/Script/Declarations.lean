import ArtCanvas.Proofs.Script.ModuleNames
import ArtCanvas.Proofs.Script.SymbolCalls

/-!
# When a script declares no name twice

The names that a script declares come from four places: the names of functions, which differ; those
of symbol functions, which differ from them and from each other; the endings that name the clocks of
a draw function; and the names that every script has. The last ones are kept free by `escape`, but
nothing keeps a function from having the name of a clock.

* `Script.fixedNames`, `Script.madeNames`: the names that every script has, and those that are made
  from the names of functions and patterns.
* `Script.ownNames`: the former of all scripts together.
* `Compiled.nodup_madeNames_iff`: when the latter are different.
* `Artwork.module_names_distinct_iff`: no name is declared twice, unless a function has the name of
  a declared clock.
-/

namespace ArtCanvas

section LastLetter

/-- The name of a clock ends in `k`. -/
theorem getLast?_drawClockName (function : String) (kind : ClockKind) :
    (drawClockName function kind).toList.getLast? = some 'k' := by
  rw [drawClockName, String.toList_append]
  cases kind <;> simp [ClockKind.ending, List.getLast?_append]

/-- The name of a symbol function ends in the letter `l` or in a number. -/
theorem Pattern.HasFunctionName.exists_getLast? {p : Pattern} (h : p.HasFunctionName) :
    ∃ c, p.functionName.toList.getLast? = some c ∧ (c = 'l' ∨ c.isDigit = true) := by
  obtain ⟨n, hn⟩ := h
  rw [hn]
  cases n with
  | zero => exact ⟨'l', by simp [symbolFunctionName], Or.inl rfl⟩
  | succ n =>
    have hdigits : (n + 1).repr.toList ≠ [] := String.toList_eq_nil_iff.not.mpr Nat.repr_ne_empty
    obtain ⟨c, hc⟩ := Option.isSome_iff_exists.mp (List.getLast?_isSome.mpr hdigits)
    refine ⟨c, ?_, Or.inr (Identifier.isDigit_of_mem_repr (List.mem_of_getLast? hc))⟩
    rw [Identifier.candidate_succ, String.toList_append, List.getLast?_append_of_ne_nil _ hdigits]
    exact hc

/-- No symbol function is named like a clock. -/
theorem Pattern.HasFunctionName.ne_drawClockName {p : Pattern} (h : p.HasFunctionName)
    (function : String) (kind : ClockKind) : p.functionName ≠ drawClockName function kind := by
  intro heq
  obtain ⟨c, hc, hletter⟩ := h.exists_getLast?
  rw [heq, getLast?_drawClockName] at hc
  obtain rfl := Option.some.inj hc
  exact absurd hletter (by decide)

/-- The name of a clock is no reserved word. -/
theorem escape_drawClockName (function : String) (kind : ClockKind) :
    Identifier.escape (drawClockName function kind) = drawClockName function kind := by
  -- `break` is reserved and ends in `k` as well, but no reserved word has the capital letter too
  have hwords : ∀ word ∈ Identifier.reservedWords,
      ¬ (word.toList.getLast? = some 'k' ∧ 'C' ∈ word.toList) := by
    simp [Identifier.reservedWords]
  refine Identifier.escape_of_not_mem fun hreserved =>
    hwords _ hreserved ⟨getLast?_drawClockName function kind, ?_⟩
  rw [drawClockName, String.toList_append]
  cases kind <;> simp [ClockKind.ending]

end LastLetter

namespace Artwork

variable {art : Artwork} {options : CompileOptions} {c : Compiled}

/-- Uses of patterns keep the shape of their names. -/
theorem keptByUses_isName (art : Artwork) :
    art.KeptByUses fun t _ => ∀ p ∈ t.patterns, Identifier.IsName p.name := by
  have hdefault : Identifier.IsName PatternTable.defaultName :=
    ⟨by decide, ⟨'p', ['a', 't', 't', 'e', 'r', 'n'], rfl, rfl⟩, ⟨'n', rfl, rfl⟩⟩
  constructor
  · exact fun _ _ _ h => PatternTable.forall_add _ _ h (fun _ _ hp => hp)
      ((Identifier.isName_ofTextOr hdefault _).unique _)
  · exact fun _ _ h => PatternTable.forall_add _ _ h (fun _ _ hp => hp)
      ((Identifier.isName_ofTextOr hdefault _).unique _)
  · exact fun _ _ h => PatternTable.forall_setFeatures h (fun _ _ hp => hp) _ _

/-- The names of patterns are made like all names. -/
theorem isName_patternName [CurveLibrary] (hc : art.compile options = .ok c) {p : Pattern}
    (hp : p ∈ c.patterns.patterns) : Identifier.IsName p.name := by
  have hnames := art.keptByUses_isName.scan (by simp) options.maxDepth
  rw [(drawn_of_compile hc).2.2.1] at hp
  obtain ⟨q, hq, hnamed⟩ := PatternTable.exists_of_mem_nameSymbols hp
  obtain ⟨symbolFunction, rfl⟩ := hnamed.exists_eq
  exact hnames q hq

/-- So are the names of the functions of patterns. -/
theorem isName_functionName [CurveLibrary] (hc : art.compile options = .ok c) {p : Pattern}
    (hp : p ∈ c.patterns.patterns) : Identifier.IsName p.functionName := by
  obtain ⟨n, hn⟩ := (patternsNamed_of_compile hc).functions p hp
  rw [hn]
  exact ((isName_patternName hc hp).append (by decide)).candidate n

end Artwork

namespace Script

/-- The names that every script of the same kind has. -/
def fixedNames (o : EmitOptions) (s : Script) : List String :=
  (if s.startup.isSome && o.includeRuntime then Runtime.names else []) ++ ["bounds"] ++
    (if s.tiles.isEmpty then [] else ["drawPatterns"]) ++ ["drawFrame"] ++ ["render"]

/-- The names that scripts have whatever is drawn. They are reserved, or begin with a capital
letter. -/
def ownNames : List String :=
  Runtime.names ++ ["bounds"] ++ ["drawPatterns"] ++ ["drawFrame"] ++ ["render"]

/-- The names that are made from those of patterns and functions, before they are escaped. -/
def madeNames (s : Script) : List String :=
  s.symbols.map SymbolFunction.name ++
    (s.objects.map DrawObject.function ++ s.paths.map PathObject.function) ++ s.clockNames

variable {o : EmitOptions} {s : Script}

/-- The names of a module are its own ones and those made from the art. -/
theorem perm_moduleNames :
    (s.moduleNames o).Perm (s.fixedNames o ++ s.madeNames.map Identifier.escape) := by
  have hclocks : s.clockNames.map Identifier.escape = s.clockNames := by
    rw [clockNames, List.map_map]
    exact List.map_congr_left fun clock _ => escape_drawClockName _ _
  rw [List.perm_iff_count]
  intro name
  simp only [moduleNames, fixedNames, madeNames, pathNames, List.map_append, hclocks, List.map_map,
    List.count_append, Function.comp_def]
  omega

/-- The names that every script may declare are different. -/
theorem nodup_ownNames : ownNames.Nodup := by
  simp [ownNames, Runtime.names_eq]

/-- Each of them is reserved, or does not begin as a name does. -/
theorem reserved_of_mem_ownNames {name : String} (hname : name ∈ ownNames) :
    name ∈ Identifier.reservedWords ∨ name.toList.head?.any Identifier.isFirstChar = false := by
  have hall : ∀ name ∈ ownNames, name ∈ Identifier.reservedWords ∨
      name.toList.head?.any Identifier.isFirstChar = false := by
    simp [ownNames, Runtime.names_eq, Identifier.reservedWords, Identifier.isFirstChar]
  exact hall name hname

/-- The names of symbol functions end otherwise. -/
theorem getLast?_of_mem_ownNames {name : String} (hname : name ∈ ownNames) {c : Char}
    (hc : name.toList.getLast? = some c) : ¬ (c = 'l' ∨ c.isDigit = true) := by
  have hall : ∀ name ∈ ownNames, ∀ c ∈ name.toList.getLast?, ¬ (c = 'l' ∨ c.isDigit = true) := by
    simp [ownNames, Runtime.names_eq]
  exact hall name hname c hc

/-- A script declares some of them. -/
theorem sublist_ownNames : (s.fixedNames o).Sublist ownNames := by
  have hclocks : (if s.startup.isSome && o.includeRuntime then Runtime.names else []).Sublist
      Runtime.names := by
    split
    · exact .refl _
    · exact List.nil_sublist _
  have htiles : (if s.tiles.isEmpty then [] else ["drawPatterns"]).Sublist ["drawPatterns"] := by
    split
    · exact List.nil_sublist _
    · exact .refl _
  exact (((hclocks.append (.refl _)).append htiles).append (.refl _)).append (.refl _)

/-- So the names of its own that a script declares are different. -/
theorem nodup_fixedNames : (s.fixedNames o).Nodup :=
  nodup_ownNames.sublist sublist_ownNames

/-- No name is a fixed one after it is escaped. -/
theorem escape_not_mem_fixedNames {name : String} (h : Identifier.IsName name) :
    Identifier.escape name ∉ s.fixedNames o :=
  fun hmem => h.escape_ne (reserved_of_mem_ownNames (sublist_ownNames.subset hmem)) rfl

/-- The other names are made as names. -/
theorem PartsNamed.isName_madeNames (h : s.PartsNamed) {name : String}
    (hname : name ∈ s.madeNames) : Identifier.IsName name := by
  unfold madeNames clockNames at hname
  simp only [List.mem_append, List.mem_map] at hname
  rcases hname with (⟨f, hf, rfl⟩ | ⟨object, hobject, rfl⟩ | ⟨path, hpath, rfl⟩) |
    ⟨clock, hclock, rfl⟩
  · exact h.symbols f hf
  · exact h.objects object hobject
  · exact h.paths path hpath
  · exact (h.clocks clock hclock).append_ending clock.clock.kind

/-- The names of a script are different if those that are made for it are. -/
theorem PartsNamed.nodup_moduleNames_iff (h : s.PartsNamed) :
    (s.moduleNames o).Nodup ↔ s.madeNames.Nodup := by
  rw [perm_moduleNames.nodup_iff, List.nodup_append']
  constructor
  · exact fun hnodup => hnodup.2.1.of_map
  · intro hnodup
    refine ⟨nodup_fixedNames, hnodup.map_on fun _ hx _ hy =>
      (h.isName_madeNames hx).escape_inj (h.isName_madeNames hy), ?_⟩
    intro name hfixed hmade
    obtain ⟨name, hname, rfl⟩ := List.mem_map.mp hmade
    exact escape_not_mem_fixedNames (h.isName_madeNames hname) hfixed

end Script

/-- The name of a symbol function is not among the names that all scripts have. -/
theorem Pattern.HasFunctionName.not_mem_ownNames {p : Pattern} (h : p.HasFunctionName) :
    p.functionName ∉ Script.ownNames := by
  intro hmem
  obtain ⟨c, hc, hletter⟩ := h.exists_getLast?
  exact Script.getLast?_of_mem_ownNames hmem hc hletter

namespace Compiled

variable {art : Artwork} {options : CompileOptions} {c : Compiled}

/-- Each function has an object that paints, or one that is followed. -/
theorem perm_functionNames (c : Compiled) (art : Artwork) :
    ((c.outlineScript art).objects.map DrawObject.function ++
      (c.outlineScript art).paths.map PathObject.function).Perm c.functions.names := by
  rw [outlineScript, List.map_map, List.map_map]
  exact c.functions.perm_names

/-- The names that are made are those of symbol functions, functions and clocks. -/
theorem perm_madeNames (c : Compiled) (art : Artwork) :
    (c.outlineScript art).madeNames.Perm
      ((c.outlineScript art).symbols.map SymbolFunction.name ++ c.functions.names ++
        (c.outlineScript art).clockNames) :=
  ((c.perm_functionNames art).append_left _).append_right _

/-- The names of symbol functions are different. -/
theorem nodup_symbolNames [CurveLibrary] (hc : art.compile options = .ok c) :
    ((c.outlineScript art).symbols.map SymbolFunction.name).Nodup := by
  have hnamed := Artwork.patternsNamed_of_compile hc
  -- patterns that are there once have different names for their functions
  have hsymbols : c.patterns.symbols.Nodup := (hnamed.handles.of_map _).filter _
  rw [outlineScript, List.map_map]
  exact hsymbols.map_on fun p hp q hq =>
    hnamed.functionName_inj (List.mem_filter.mp hp).1 (List.mem_filter.mp hq).1

/-- Clocks have different names if functions do. -/
theorem nodup_clockNames (hb : c.functions.Bound) : (c.outlineScript art).clockNames.Nodup := by
  have hnodup := nodup_texts hb declaredRefs_sublist
  rwa [declaredRefs, List.map_map] at hnodup

/-- The parts of a script have the names of functions and patterns. -/
theorem partsNamed [CurveLibrary] (hc : art.compile options = .ok c) :
    (c.outlineScript art).PartsNamed := by
  have hb := Artwork.bound_of_compile hc
  have hfunctions : ∀ name ∈ (c.outlineScript art).objects.map DrawObject.function ++
      (c.outlineScript art).paths.map PathObject.function, Identifier.IsName name := by
    intro name hname
    obtain ⟨f, hf, rfl⟩ := List.mem_map.mp ((c.perm_functionNames art).subset hname)
    exact hb.name f hf
  constructor
  · intro f hf
    obtain ⟨p, hp, rfl⟩ := List.mem_map.mp hf
    exact Artwork.isName_functionName hc (List.mem_filter.mp hp).1
  · exact fun object hobject =>
      hfunctions _ (List.mem_append_left _ (List.mem_map_of_mem hobject))
  · exact fun path hpath => hfunctions _ (List.mem_append_right _ (List.mem_map_of_mem hpath))
  · intro clock hclock
    have href : .ofDraw clock.function clock.clock.kind ∈ c.declaredRefs :=
      List.mem_map.mpr ⟨clock, hclock, rfl⟩
    exact isName_of_mem_clockRefs hb (declaredRefs_sublist.subset href)

/-- The names that are made are different unless a function has the name of a declared clock. -/
theorem nodup_madeNames_iff [CurveLibrary] (hc : art.compile options = .ok c) :
    (c.outlineScript art).madeNames.Nodup ↔
      ∀ clock ∈ (c.outlineScript art).clocks,
        drawClockName clock.function clock.clock.kind ∉ c.functions.names := by
  have hb := Artwork.bound_of_compile hc
  rw [(c.perm_madeNames art).nodup_iff, List.nodup_append', List.nodup_append']
  constructor
  · rintro ⟨-, -, hdisjoint⟩ clock hclock hname
    exact hdisjoint (List.mem_append_right _ hname) (List.mem_map_of_mem hclock)
  · intro hfree
    refine ⟨⟨nodup_symbolNames hc, hb.names, ?_⟩, nodup_clockNames hb, ?_⟩
    · -- symbol functions are named after the functions, which are all taken
      intro name hsymbol hfunction
      rw [outlineScript, List.map_map] at hsymbol
      obtain ⟨p, hp, rfl⟩ := List.mem_map.mp hsymbol
      obtain ⟨hp, hsymbol⟩ := List.mem_filter.mp hp
      rw [(Artwork.drawn_of_compile hc).2.2.1] at hp
      exact PatternTable.functionName_not_mem_of_mem_nameSymbols hp hsymbol hfunction
    · -- a clock has the name of no symbol function, and that of a function is left out
      intro name hname hmem
      obtain ⟨clock, hclock, rfl⟩ := List.mem_map.mp hmem
      rcases List.mem_append.mp hname with hsymbol | hfunction
      · rw [outlineScript, List.map_map] at hsymbol
        obtain ⟨p, hp, heq⟩ := List.mem_map.mp hsymbol
        have hmade := (Artwork.patternsNamed_of_compile hc).functions p (List.mem_filter.mp hp).1
        exact hmade.ne_drawClockName _ _ heq
      · exact hfree clock hclock hfunction

end Compiled

/-- Whatever art a host shows: if it can be compiled, a script is written for it, which declares at
its outermost level what its parts are called, and no name twice, unless a function has the name of
a clock that is declared. -/
theorem Artwork.module_names_distinct_iff [CurveLibrary] (art : Artwork) (options : CompileOptions)
    (c : Compiled) (hc : art.compile options = .ok c) :
    ∃ script, c.script art c.outline.renderer = .ok script ∧
      (∀ o : EmitOptions, c.emit art o = .ok (script.text o)) ∧
      ∀ o : EmitOptions, Code.declaredNames (script.code o) = script.moduleNames o ∧
        ((Code.declaredNames (script.code o)).Nodup ↔
          ∀ clock ∈ script.clocks,
            drawClockName clock.function clock.clock.kind ∉ c.functions.names) := by
  have hscript := Compiled.script_outline c art
  have hparts := Compiled.partsNamed hc
  refine ⟨c.outlineScript art, hscript, Compiled.emit_of_script hscript, fun o => ?_⟩
  have hdeclared := Script.declaredNames_code hparts o
  rw [hdeclared, hparts.nodup_moduleNames_iff]
  exact ⟨rfl, Compiled.nodup_madeNames_iff hc⟩

namespace ArtDocument

/-- A ball that turns, and a layer beside it with a symbol that is also called a ball. -/
def turningBall (neighbour : String) : ArtDocument where
  layers := #[{ name := "ball(rotate-duration:2)", art := some 0 },
    { name := neighbour, art := some 1 }]
  nodes := #[{ bounds := unitBox }, { bounds := unitBox, kind := .symbol, symbol := some 0 },
    { bounds := unitBox }]
  patterns := #[{ name := "ball", content := some 2 }]

/-- Where the layer has the name that the symbol function would have, the symbol function gets
another one, and no name is declared twice. -/
theorem module_names_distinct_ballSymbol :
    (turningBall "ballSymbol").Valid ∧
      ∃ c script, (turningBall "ballSymbol").view.compile {} = .ok c ∧
        c.script (turningBall "ballSymbol").view c.outline.renderer = .ok script ∧
        Code.declaredNames (script.code { includeRuntime := false }) =
          ["bounds", "ballSymbol1", "ballSymbol", "ball", "ballRotateClock", "drawFrame",
            "render"] ∧
        ∀ o : EmitOptions, (Code.declaredNames (script.code o)).Nodup := by
  have hvalid : (turningBall "ballSymbol").Valid := by decide +kernel
  have hcompile : ((turningBall "ballSymbol").view.compile {}).toOption.any (fun c =>
      (c.script (turningBall "ballSymbol").view c.outline.renderer).toOption.any fun script =>
        decide (script.moduleNames { includeRuntime := false } =
          ["bounds", "ballSymbol1", "ballSymbol", "ball", "ballRotateClock", "drawFrame",
            "render"] ∧
            ∀ clock ∈ script.clocks,
              drawClockName clock.function clock.clock.kind ∉ c.functions.names)) = true := by
    decide +kernel
  -- the names of the parts are computed, and the theorem reads them off the code
  obtain ⟨c, hc, hscript⟩ := exists_ok_of_any hcompile
  obtain ⟨script, hscript, hparts⟩ := exists_ok_of_any hscript
  obtain ⟨hnames, hfree⟩ := of_decide_eq_true hparts
  obtain ⟨script', hscript', -, hdistinct⟩ :=
    Artwork.module_names_distinct_iff (turningBall "ballSymbol").view {} c hc
  cases hscript.symm.trans hscript'
  exact ⟨hvalid, c, script, hc, hscript, (hdistinct _).1.trans hnames,
    fun o => (hdistinct o).2.mpr hfree⟩

/-- Where the layer has the name of the clock of the ball, that name is declared twice. -/
theorem module_names_not_distinct_ballRotateClock :
    (turningBall "ballRotateClock").Valid ∧
      ∃ c script, (turningBall "ballRotateClock").view.compile {} = .ok c ∧
        c.script (turningBall "ballRotateClock").view c.outline.renderer = .ok script ∧
        ∀ o : EmitOptions, ¬ (Code.declaredNames (script.code o)).Nodup := by
  have hvalid : (turningBall "ballRotateClock").Valid := by decide +kernel
  have hcompile : ((turningBall "ballRotateClock").view.compile {}).toOption.any (fun c =>
      (c.script (turningBall "ballRotateClock").view c.outline.renderer).toOption.any fun script =>
        decide (¬ script.madeNames.Nodup)) = true := by
    decide +kernel
  obtain ⟨c, hc, hscript⟩ := exists_ok_of_any hcompile
  obtain ⟨script, hscript, htwice⟩ := exists_ok_of_any hscript
  refine ⟨hvalid, c, script, hc, hscript, fun o hnodup => ?_⟩
  cases hscript.symm.trans (Compiled.script_outline c _)
  have hparts : (c.outlineScript (turningBall "ballRotateClock").view).PartsNamed :=
    Compiled.partsNamed hc
  rw [Script.declaredNames_code hparts, hparts.nodup_moduleNames_iff] at hnodup
  exact of_decide_eq_true htwice hnodup

end ArtDocument

end ArtCanvas
