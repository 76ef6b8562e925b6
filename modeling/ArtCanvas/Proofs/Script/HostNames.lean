import ArtCanvas.Proofs.Script.Declarations

/-!
# Names that a script takes from others

A script relies on names that it does not declare: its functions get the drawing context under one,
and its host provides the page, a timer, a watch, mathematics and images under others. If a part of
the script has such a name, what is written with it means the part. `escape` keeps parts clear of
one of them, and all parts begin with a small letter or an underscore; that leaves three, which a
function may still have.

* `foreignNames`: the names that are meant for something else than a part of the script.
* `Compiled.mem_declaredNames_iff`: where the names that a script declares come from.
* `Artwork.foreign_names_declared_iff`: a script declares a foreign name exactly if a function has
  one of three.
-/

namespace ArtCanvas

/-- The names of what a script takes from its host. -/
def hostNames : List String := ["document", "performance", "setInterval", "Math", "Image"]

/-- The names in a script that are meant for something else than a part of it: the context, as it is
called by default, and what the host provides. -/
def foreignNames : List String := ({} : EmitOptions).contextName :: hostNames

/-- The foreign names that a function may have. -/
def unguardedNames : List String := ["ctx", "performance", "setInterval"]

/-- A foreign name is kept clear of, or may be had by a function. -/
theorem guarded_or_mem_unguardedNames {name : String} (h : name ∈ foreignNames) :
    (name ∈ Identifier.reservedWords ∨
      name.toList.head?.any Identifier.isFirstChar = false) ∨ name ∈ unguardedNames := by
  have hall : ∀ name ∈ foreignNames, (name ∈ Identifier.reservedWords ∨
      name.toList.head?.any Identifier.isFirstChar = false) ∨ name ∈ unguardedNames := by
    simp [foreignNames, hostNames, unguardedNames, Identifier.reservedWords, Identifier.isFirstChar]
  exact hall name h

/-- No foreign name looks like that of a symbol function or of a clock, or like an escaped word. -/
theorem shape_of_mem_foreignNames {name : String} (h : name ∈ foreignNames) :
    'y' ∉ name.toList ∧ name.toList.getLast? ≠ some 'k' ∧ name.toList.getLast? ≠ some '_' := by
  have hall : ∀ name ∈ foreignNames, 'y' ∉ name.toList ∧ name.toList.getLast? ≠ some 'k' ∧
      name.toList.getLast? ≠ some '_' := by
    simp [foreignNames, hostNames]
  exact hall name h

/-- No script declares a foreign name for itself. -/
theorem Script.not_mem_fixedNames_of_mem_foreignNames {s : Script} {o : EmitOptions} {name : String}
    (h : name ∈ foreignNames) : name ∉ s.fixedNames o := by
  have hown : ∀ name ∈ foreignNames, name ∉ Script.ownNames := by
    simp [foreignNames, hostNames, Script.ownNames, Runtime.names_eq]
  exact fun hmem => hown name h (Script.sublist_ownNames.subset hmem)

theorem escape_of_mem_unguardedNames {name : String} (h : name ∈ unguardedNames) :
    Identifier.escape name = name := by
  have hall : ∀ name ∈ unguardedNames, Identifier.escape name = name := by
    simp [unguardedNames, Identifier.escape, Identifier.reservedWords]
  exact hall name h

namespace Compiled

variable [CurveLibrary] {art : Artwork} {options : CompileOptions} {c : Compiled}

/-- What a script declares is what every script does, or is made for a symbol, a function or a
clock. -/
theorem mem_declaredNames_iff (hc : art.compile options = .ok c) {o : EmitOptions} {name : String} :
    name ∈ Code.declaredNames ((c.outlineScript art).code o) ↔
      name ∈ (c.outlineScript art).fixedNames o ∨
        (∃ p ∈ c.patterns.symbols, p.functionName = name) ∨
        (∃ function ∈ c.functions.names, Identifier.escape function = name) ∨
        ∃ clock ∈ (c.outlineScript art).clocks,
          drawClockName clock.function clock.clock.kind = name := by
  -- escaping leaves the names of symbol functions and clocks alone
  have hsymbols : ∀ p ∈ c.patterns.symbols, Identifier.escape p.functionName = p.functionName :=
    fun p hp => ((Artwork.patternsNamed_of_compile hc).functions p (List.mem_filter.mp hp).1).escape
  rw [Script.declaredNames_code (partsNamed hc), Script.perm_moduleNames.mem_iff, List.mem_append,
    ((c.perm_madeNames art).map _).mem_iff, Script.clockNames]
  simp only [List.map_append, List.mem_append, List.mem_map, exists_exists_and_eq_and,
    escape_drawClockName, or_assoc, outlineScript, outlineSymbol]
  refine or_congr_right (or_congr_left (exists_congr fun p => ?_))
  exact and_congr_right fun hp => by rw [hsymbols p hp]

/-- A name that is meant for something else is declared only if a function has it, as the script
says it, and only if it is one of three. -/
theorem foreign_declared_iff (hc : art.compile options = .ok c) {o : EmitOptions} {name : String}
    (hname : name ∈ foreignNames) :
    name ∈ Code.declaredNames ((c.outlineScript art).code o) ↔
      name ∈ c.functions.names ∧ name ∈ unguardedNames := by
  obtain ⟨hsymbol, hclock, hescaped⟩ := shape_of_mem_foreignNames hname
  rw [mem_declaredNames_iff hc]
  constructor
  · rintro (hmem | ⟨p, hp, rfl⟩ | ⟨function, hmem, rfl⟩ | ⟨clock, -, rfl⟩)
    · exact absurd hmem (Script.not_mem_fixedNames_of_mem_foreignNames hname)
    · -- no foreign name is like that of a symbol function
      obtain ⟨n, hn⟩ :=
        (Artwork.patternsNamed_of_compile hc).functions p (List.mem_filter.mp hp).1
      rw [hn] at hsymbol
      exact absurd (Identifier.mem_toList_candidate_symbolFunctionName _ _).2 hsymbol
    · -- nor does one end in the underscore of an escaped word
      have hsame : Identifier.escape function = function := by
        rcases Identifier.escape_cases function with hword | hword
        · rw [hword] at hescaped
          exact absurd (Identifier.getLast?_append_underscore function) hescaped
        · exact hword
      obtain ⟨f, hf, rfl⟩ := List.mem_map.mp hmem
      have hshape := (Artwork.bound_of_compile hc).name f hf
      rcases guarded_or_mem_unguardedNames hname with hguarded | hunguarded
      · exact absurd rfl (hshape.escape_ne hguarded)
      · rw [hsame] at hunguarded ⊢
        exact ⟨hmem, hunguarded⟩
    · exact absurd (getLast?_drawClockName _ _) hclock
  · rintro ⟨hmem, hunguarded⟩
    exact Or.inr (Or.inr (Or.inl ⟨name, hmem, escape_of_mem_unguardedNames hunguarded⟩))

end Compiled

/-- Whatever art a host shows: if it can be compiled, a script is written for it that declares a
name which is meant for the context or for something of the host exactly if a function has the name,
and the name is one of the three that are not kept clear of. So no object, path, symbol function or
clock stands for something else than itself, unless a function is called by one of the three. -/
theorem Artwork.foreign_names_declared_iff [CurveLibrary] (art : Artwork) (options : CompileOptions)
    (c : Compiled) (hc : art.compile options = .ok c) :
    ∃ script, c.script art c.outline.renderer = .ok script ∧
      (∀ o : EmitOptions, c.emit art o = .ok (script.text o)) ∧
      ∀ (o : EmitOptions) (name : String),
        (name ∈ Code.declaredNames (script.code o) ∧ name ∈ foreignNames) ↔
          name ∈ c.functions.names ∧ name ∈ unguardedNames := by
  have hscript := Compiled.script_outline c art
  have hforeign : ∀ name ∈ unguardedNames, name ∈ foreignNames := by
    simp [unguardedNames, foreignNames, hostNames]
  refine ⟨c.outlineScript art, hscript, Compiled.emit_of_script hscript, fun o name => ?_⟩
  constructor
  · rintro ⟨hdeclared, hname⟩
    exact (Compiled.foreign_declared_iff hc hname).mp hdeclared
  · rintro ⟨hmem, hunguarded⟩
    have hname := hforeign name hunguarded
    exact ⟨(Compiled.foreign_declared_iff hc hname).mpr ⟨hmem, hunguarded⟩, hname⟩

namespace ArtDocument

/-- A layer that is called like the page of the host has an object under another name. -/
theorem foreign_names_not_declared_document :
    (turningBall "document").Valid ∧
      ∃ c script, (turningBall "document").view.compile {} = .ok c ∧
        c.script (turningBall "document").view c.outline.renderer = .ok script ∧
        c.functions.names = ["document", "ball"] ∧
        (∀ o : EmitOptions, "document_" ∈ Code.declaredNames (script.code o)) ∧
        ∀ (o : EmitOptions), ∀ name ∈ foreignNames, name ∉ Code.declaredNames (script.code o) := by
  have hcompile : ((turningBall "document").view.compile {}).toOption.any (fun c =>
      decide (c.functions.names = ["document", "ball"])) = true := by
    decide +kernel
  obtain ⟨c, hc, hnames⟩ := exists_ok_of_any hcompile
  replace hnames := of_decide_eq_true hnames
  obtain ⟨script, hscript, -, hforeign⟩ := Artwork.foreign_names_declared_iff _ {} c hc
  refine ⟨by decide +kernel, c, script, hc, hscript, hnames, fun o => ?_,
    fun o name hname hmem => ?_⟩
  · cases hscript.symm.trans (c.script_outline _)
    refine (Compiled.mem_declaredNames_iff hc).mpr (Or.inr (Or.inr (Or.inl ⟨"document", ?_, ?_⟩)))
    · rw [hnames]
      decide
    · decide +kernel
  · -- neither function has a name that is not kept clear of
    obtain ⟨hfunction, hunguarded⟩ := (hforeign o name).mp ⟨hmem, hname⟩
    rw [hnames] at hfunction
    have hnone : ∀ name ∈ ["document", "ball"], name ∉ unguardedNames := by
      simp [unguardedNames]
    exact hnone name hfunction hunguarded

/-- The object of a layer that is called like the context is declared under that name, and a frame
then asks the context to paint itself. -/
theorem foreign_names_declared_ctx :
    (turningBall "ctx").Valid ∧
      ∃ c script, (turningBall "ctx").view.compile {} = .ok c ∧
        c.script (turningBall "ctx").view c.outline.renderer = .ok script ∧
        ({} : EmitOptions).contextName ∈ Code.declaredNames (script.code {}) ∧
        "ctx.paint(ctx);" ∈
          (script.frameBody {}).flatMap (FrameStmt.lines ({} : EmitOptions).contextName) := by
  have hcompile : ((turningBall "ctx").view.compile {}).toOption.any (fun c =>
      decide ("ctx" ∈ c.functions.names ∧ "ctx.paint(ctx);" ∈
        ((c.outlineScript (turningBall "ctx").view).frameBody {}).flatMap
          (FrameStmt.lines "ctx"))) = true := by
    decide +kernel
  obtain ⟨c, hc, hparts⟩ := exists_ok_of_any hcompile
  obtain ⟨hfunction, hline⟩ := of_decide_eq_true hparts
  exact ⟨by decide +kernel, c, _, hc, c.script_outline _,
    (Compiled.foreign_declared_iff hc (List.mem_cons_self ..)).mpr ⟨hfunction, by decide⟩, hline⟩

end ArtDocument

end ArtCanvas
