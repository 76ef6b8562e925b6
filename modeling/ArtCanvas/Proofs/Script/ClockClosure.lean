import ArtCanvas.Proofs.Script.FrameReads
import Mathlib.Data.List.Count

/-!
# Clocks and paths in the lines of a script

The lines of a script are read for the clocks and paths that they make, and for those that they
read, wire and start. What is used is found to be made, once, and to come from a function.

* `Code.madeTerms`, `Code.usedTerms`: what the lines of code make and use.
* `Script.clockLines_code`: what the lines of a script have to do with clocks, in order.
* `Compiled.Provides`: where a term comes from.
* `Artwork.clocks_closed`: all that a script uses is made once, every trigger with a source is wired
  in one line, every running clock is started in one line unless it is driven, and nothing of this
  is written for a document that cannot move.
-/

namespace ArtCanvas

open Identifier (escape)

/-! ### What lines make and use -/

namespace ClockLine

/-- The clock that a line makes. -/
def made? : ClockLine → Option ClockTerm
  | .makes clock => some clock
  | _ => none

/-- The clocks that a line wires or starts. -/
def used : ClockLine → List ClockTerm
  | .makes _ => []
  | .wires heard _ told _ => [heard, told]
  | .starts clock => [clock]

/-- Whether a line makes one clock listen to another. -/
def isWiring : ClockLine → Bool
  | .wires _ _ _ _ => true
  | _ => false

end ClockLine

namespace Code

/-- What the lines of code have to do with clocks. -/
def clockLines (code : List Code) : List ClockLine := (lineTextsOf code).filterMap ClockLine.read?

/-- The clocks and paths that are made. -/
def madeTerms (code : List Code) : List ClockTerm := (clockLines code).filterMap ClockLine.made?

/-- The clocks and paths that are read in a frame, wired or started. -/
def usedTerms (ctx : String) (code : List Code) : List ClockTerm :=
  frameTerms ctx code ++ (clockLines code).flatMap ClockLine.used

/-- The lines that make one clock listen to another. -/
def wiringTexts (code : List Code) : List String :=
  (lineTextsOf code).filter fun line => (ClockLine.read? line).any ClockLine.isWiring

theorem clockLines_eq (code : List Code) :
    clockLines code = (clockTexts code).filterMap ClockLine.read? := by
  rw [clockTexts, List.filterMap_filter, clockLines]
  refine List.filterMap_congr fun line _ => ?_
  cases ClockLine.read? line <;> rfl

theorem wiringTexts_eq (code : List Code) :
    wiringTexts code =
      (clockTexts code).filter fun line => (ClockLine.read? line).any ClockLine.isWiring := by
  rw [clockTexts, List.filter_filter, wiringTexts]
  refine List.filter_congr fun line _ => ?_
  cases ClockLine.read? line with
  | none => rfl
  | some reading => exact (Bool.and_true _).symm

/-- A line that has to do with clocks is found as often among such lines as among all. -/
theorem count_clockTexts {code : List Code} {line : String}
    (h : (ClockLine.read? line).isSome = true) :
    (clockTexts code).count line = (lineTextsOf code).count line :=
  List.count_filter h

end Code

/-- What the line of a wiring has to do with clocks. -/
def Wiring.clockLine (w : Wiring) : ClockLine :=
  .wires w.source.term w.event.scriptName w.target.term w.action.scriptName

/-! ### The lines of a script -/

/-- Where every line is read in some way, all lines are read in these ways. -/
theorem ClockLine.filterMap_read? {α : Type} {text : α → String} {reading : α → ClockLine}
    {l : List α} (h : ∀ a ∈ l, read? (text a) = some (reading a)) :
    (l.map text).filterMap read? = l.map reading := by
  rw [List.filterMap_map, ← List.filterMap_eq_map']
  exact List.filterMap_congr h

namespace Script

variable {o : EmitOptions} {s : Script}

/-- What the lines of a script have to do with clocks. -/
theorem clockLines_code (h : s.NamesFunctions o) :
    Code.clockLines (s.code o) =
      s.paths.map (fun path => .makes (.ofPath (escape path.function))) ++
        s.clocks.map (fun clock => .makes (.constant (drawClockName clock.function
          clock.clock.kind))) ++
        s.wirings.map Wiring.clockLine ++ s.starts.map fun clock => .starts clock.term := by
  have hwirings : (s.wirings.map Wiring.line).filterMap ClockLine.read? =
      s.wirings.map Wiring.clockLine := ClockLine.filterMap_read? fun w hw =>
    Wiring.read?_line (h.wirings w hw).1 (h.wirings w hw).2
  -- the four groups of lines, each read in its way
  rw [Code.clockLines_eq, clockTexts_code h, List.filterMap_append, List.filterMap_append,
    List.filterMap_append,
    ClockLine.filterMap_read? fun path hpath =>
      ClockLine.read?_opening (h.parts.paths path hpath),
    ClockLine.filterMap_read? fun clock hclock =>
      ClockLine.read?_declaration (h.parts.clocks clock hclock),
    hwirings,
    ClockLine.filterMap_read? fun clock hclock => ClockRef.read?_startLine (h.starts clock hclock)]

/-- What is made are the paths and the clocks. -/
theorem madeTerms_code (h : s.NamesFunctions o) :
    Code.madeTerms (s.code o) =
      s.pathNames.map ClockTerm.ofPath ++ s.clockNames.map ClockTerm.constant := by
  have hnone : ∀ {α : Type} {reading : α → ClockLine} {l : List α},
      (∀ a, (reading a).made? = none) → (l.map reading).filterMap ClockLine.made? = [] := by
    intro α reading l hreading
    rw [List.filterMap_map]
    exact List.filterMap_eq_nil_iff.mpr fun a _ => hreading a
  have hsome : ∀ {α : Type} {term : α → ClockTerm} {l : List α},
      (l.map fun a => ClockLine.makes (term a)).filterMap ClockLine.made? = l.map term := by
    intro α term l
    rw [List.filterMap_map, ← List.filterMap_eq_map']
    rfl
  -- only declarations make something
  rw [Code.madeTerms, clockLines_code h, List.filterMap_append, List.filterMap_append,
    List.filterMap_append, hsome, hsome, hnone fun _ => rfl, hnone fun _ => rfl, List.append_nil,
    List.append_nil, pathNames, clockNames, List.map_map, List.map_map]
  rfl

/-- What is used is what the statements of a frame refer to, the two ends of each wiring, and the
clocks that are started. -/
theorem usedTerms_code (h : s.NamesFunctions o) :
    Code.usedTerms o.contextName (s.code o) =
      (s.frameBody o).flatMap FrameStmt.terms ++
        (s.wirings.flatMap (fun w => [w.source.term, w.target.term]) ++
          s.starts.map ClockRef.term) := by
  have hnone : ∀ {α : Type} {reading : α → ClockLine} {l : List α},
      (∀ a, (reading a).used = []) → (l.map reading).flatMap ClockLine.used = [] := by
    intro α reading l hreading
    rw [List.flatMap_map]
    exact List.flatMap_eq_nil_iff.mpr fun a _ => hreading a
  -- declarations use nothing
  rw [Code.usedTerms, frameTerms_code h, clockLines_code h, List.flatMap_append,
    List.flatMap_append, List.flatMap_append, hnone fun _ => rfl, hnone fun _ => rfl,
    List.flatMap_map, List.flatMap_map, List.nil_append, List.nil_append, List.map_eq_flatMap]
  rfl

/-- What is used is what the script refers to. -/
theorem exists_clockRef_of_mem_usedTerms (h : s.NamesFunctions o) {term : ClockTerm}
    (hterm : term ∈ Code.usedTerms o.contextName (s.code o)) :
    ∃ ref ∈ s.clockRefs o, ref.term = term := by
  rw [usedTerms_code h, List.mem_append, List.mem_append] at hterm
  -- a term is read in a frame, wired, or started
  rcases hterm with hframe | hwiring | hstart
  · obtain ⟨stmt, hstmt, hterm⟩ := List.mem_flatMap.mp hframe
    obtain ⟨ref, href, rfl⟩ := FrameStmt.exists_clockRef_of_mem_terms hterm
    exact ⟨ref, List.mem_append_left _ (List.mem_append_left _
      (List.mem_filterMap.mpr ⟨stmt, hstmt, href⟩)), rfl⟩
  · obtain ⟨w, hw, hterm⟩ := List.mem_flatMap.mp hwiring
    have hrefs : ∀ ref ∈ [w.source, w.target], ref ∈ s.clockRefs o := fun ref href =>
      List.mem_append_left _ (List.mem_append_right _ (List.mem_flatMap.mpr ⟨w, hw, href⟩))
    simp only [List.mem_cons, List.not_mem_nil, or_false] at hterm
    rcases hterm with rfl | rfl
    · exact ⟨w.source, hrefs _ (by simp), rfl⟩
    · exact ⟨w.target, hrefs _ (by simp), rfl⟩
  · obtain ⟨clock, hclock, rfl⟩ := List.mem_map.mp hstart
    exact ⟨clock, List.mem_append_right _ hclock, rfl⟩

/-- The lines that make one clock listen to another are those of the wirings. -/
theorem wiringTexts_code (h : s.NamesFunctions o) :
    Code.wiringTexts (s.code o) = s.wirings.map Wiring.line := by
  -- lines that are read in another way are no wirings
  have hnone : ∀ {α : Type} {text : α → String} {l : List α} {reading : α → ClockLine},
      (∀ a ∈ l, ClockLine.read? (text a) = some (reading a)) →
      (∀ a, (reading a).isWiring = false) →
      (l.map text).filter (fun line => (ClockLine.read? line).any ClockLine.isWiring) = [] := by
    intro α text l reading hread hother
    refine List.filter_eq_nil_iff.mpr (List.forall_mem_map.mpr fun a ha => ?_)
    rw [hread a ha, Option.any_some, hother]
    exact Bool.false_ne_true
  have hwirings : (s.wirings.map Wiring.line).filter
      (fun line => (ClockLine.read? line).any ClockLine.isWiring) = s.wirings.map Wiring.line := by
    refine List.filter_eq_self.mpr (List.forall_mem_map.mpr fun w hw => ?_)
    rw [Wiring.read?_line (h.wirings w hw).1 (h.wirings w hw).2]
    rfl
  rw [Code.wiringTexts_eq, clockTexts_code h, List.filter_append, List.filter_append,
    List.filter_append, hwirings,
    hnone (fun path hpath => ClockLine.read?_opening (h.parts.paths path hpath)) fun _ => rfl,
    hnone (fun clock hclock => ClockLine.read?_declaration (h.parts.clocks clock hclock))
      fun _ => rfl,
    hnone (fun clock hclock => ClockRef.read?_startLine (h.starts clock hclock)) fun _ => rfl,
    List.nil_append, List.nil_append, List.append_nil]

/-- A clock is started in as many lines as it is listed among the clocks that are started. -/
theorem count_startLine (h : s.NamesFunctions o) {ref : ClockRef}
    (href : Identifier.IsName ref.function) :
    (Code.lineTextsOf (s.code o)).count ref.startLine =
      (s.starts.map ClockRef.text).count ref.text := by
  have hread := ClockRef.read?_startLine href
  -- a line that is read in another way is not this one
  have hzero : ∀ {α : Type} {text : α → String} {l : List α} {reading : α → ClockLine},
      (∀ a ∈ l, ClockLine.read? (text a) = some (reading a)) →
      (∀ a, reading a ≠ .starts ref.term) → (l.map text).count ref.startLine = 0 := by
    intro α text l reading hreadings hother
    refine List.count_eq_zero.mpr fun hmem => ?_
    obtain ⟨a, ha, heq⟩ := List.mem_map.mp hmem
    have hreading := hreadings a ha
    rw [heq, hread] at hreading
    exact hother a (Option.some.inj hreading).symm
  have hstarts : s.starts.map ClockRef.startLine =
      (s.starts.map ClockRef.text).map (· ++ ".start();") := by
    rw [List.map_map]
    rfl
  have hpaths := hzero
    (fun path hpath => ClockLine.read?_opening (h.parts.paths path hpath))
    fun _ heq => by cases heq
  have hclocks := hzero
    (fun clock hclock => ClockLine.read?_declaration (h.parts.clocks clock hclock))
    fun _ heq => by cases heq
  have hwirings := hzero
    (fun w hw => Wiring.read?_line (h.wirings w hw).1 (h.wirings w hw).2)
    fun _ heq => by cases heq
  rw [← Code.count_clockTexts (congrArg Option.isSome hread), clockTexts_code h, List.count_append,
    List.count_append, List.count_append, hpaths, hclocks, hwirings, hstarts, Nat.zero_add]
  -- with the same ending, different clocks have different lines
  exact List.count_map_of_injective _ _ (fun _ _ => (String.append_left_inj _).mp) _

/-- What is made is declared. -/
theorem name_mem_declaredNames (h : s.NamesFunctions o) {term : ClockTerm}
    (hterm : term ∈ Code.madeTerms (s.code o)) :
    term.name ∈ Code.declaredNames (s.code o) := by
  rw [madeTerms_code h, List.mem_append] at hterm
  rw [declaredNames_code h.parts]
  unfold moduleNames
  rcases hterm with hpath | hclock
  · obtain ⟨path, hname, rfl⟩ := List.mem_map.mp hpath
    simp only [ClockTerm.name, List.mem_append, hname, or_true, true_or]
  · obtain ⟨name, hname, rfl⟩ := List.mem_map.mp hclock
    simp only [ClockTerm.name, List.mem_append, hname, or_true, true_or]

/-- The code of a path is part of that of the script. -/
theorem pathCode_subset {path : PathObject} (hpath : path ∈ s.paths) : path.code ⊆ s.code o :=
  fun _ hpiece => List.mem_append_left _ (List.mem_append_left _ (List.mem_append_left _
    (List.mem_append_left _ (List.mem_append_right _
      (List.mem_flatMap.mpr ⟨path, hpath, hpiece⟩)))))

end Script

/-! ### The lines of a compiled document -/

namespace Compiled

variable (c : Compiled)

/-- What is made in code for a term comes from a function: the clock of a draw function is declared
in a line of its own, and the path of an animation function is written as a whole. -/
def Provides (code : List Code) : ClockTerm → Prop
  | .constant name => ∃ d, .draw d ∈ c.functions.functions ∧ ∃ clock ∈ d.clocks,
      drawClockName d.header.name clock.kind = name ∧
        ClockObject.declaration { function := d.header.name, clock } ∈ Code.lineTextsOf code
  | .ofPath path => ∃ m, .animation m ∈ c.functions.functions ∧ escape m.header.name = path ∧
      (c.pathObject m).code ⊆ code

variable {c} {art : Artwork} {options : CompileOptions} {o : EmitOptions}

/-- To bring a draw function to its place, a statement speaks of the function that is followed. -/
theorem function_of_mem_approach {d : DrawFunction} {stmt : FrameStmt} {function : String}
    (hstmt : stmt ∈ (c.approach d).body) (hfunction : stmt.function? = some function) :
    ∃ g ∈ c.functions.functions, function = g.name := by
  unfold approach at hstmt
  split at hstmt
  next g hguide =>
    obtain ⟨j, -, hg⟩ := Option.bind_eq_some_iff.mp hguide
    refine ⟨g, List.mem_of_getElem? hg, ?_⟩
    rcases List.mem_cons.mp hstmt with rfl | hturn
    · exact (Option.some.inj hfunction).symm
    · obtain ⟨degrees, -, rfl⟩ := Option.map_eq_some_iff.mp (Option.mem_toList.mp hturn)
      exact (Option.some.inj hfunction).symm
  next =>
    split at hstmt
    · obtain rfl := List.mem_singleton.mp hstmt
      cases hfunction
    · cases hstmt

/-- A statement of a frame speaks of the draw function that is painted, or of the function that is
followed. -/
theorem function_of_mem_frame {d : DrawFunction} {marks : Bool} {stmt : FrameStmt}
    {function : String} (hstmt : stmt ∈ (c.frameCall d).body marks)
    (hfunction : stmt.function? = some function) :
    function = d.header.name ∨ ∃ g ∈ c.functions.functions, function = g.name := by
  have hinner : stmt ∈ (c.frameCall d).inner marks := by
    unfold FrameCall.body at hstmt
    split at hstmt
    · simp only [List.cons_append, List.mem_cons, List.mem_append, List.not_mem_nil,
        or_false] at hstmt
      -- the context is kept and set back without a function
      rcases hstmt with rfl | hstmt | rfl
      · cases hfunction
      · exact hstmt
      · cases hfunction
    · exact hstmt
  simp only [FrameCall.inner, List.mem_append] at hinner
  rcases hinner with ((happroach | hclock) | hpaint) | hmark
  · exact Or.inr (function_of_mem_approach happroach hfunction)
  · obtain ⟨kind, -, rfl⟩ := List.mem_map.mp hclock
    exact Or.inl (Option.some.inj hfunction).symm
  · obtain rfl := List.mem_singleton.mp hpaint
    exact Or.inl (Option.some.inj hfunction).symm
  · split at hmark
    · simp only [FrameCall.markOrigin, List.mem_cons, List.not_mem_nil, or_false] at hmark
      rcases hmark with rfl | rfl | rfl | rfl <;> cases hfunction
    · cases hmark

variable [CurveLibrary]

/-- What a script declares belongs to a function whose name has the shape of names. -/
theorem isName_of_declares (hc : art.compile options = .ok c) {ref : ClockRef}
    (href : c.Declares (c.outlineScript art) ref) : Identifier.IsName ref.function := by
  cases ref with
  | ofPath function =>
    obtain ⟨m, hm, rfl, -⟩ := href
    exact (Artwork.bound_of_compile hc).name _ hm
  | ofDraw function kind =>
    have hmem := List.one_le_count_iff.mp (Nat.le_of_eq href.symm)
    obtain ⟨object, hobject, hname⟩ := List.mem_map.mp hmem
    obtain ⟨rfl, -⟩ := drawClockName_inj hname
    exact (partsNamed hc).clocks object hobject

/-- A script speaks of functions whose names have the shape of names. -/
theorem namesFunctions (hc : art.compile options = .ok c) (o : EmitOptions) :
    (c.outlineScript art).NamesFunctions o := by
  have hb := Artwork.bound_of_compile hc
  have hrefs : ∀ ref ∈ (c.outlineScript art).clockRefs o, Identifier.IsName ref.function :=
    fun _ href => isName_of_declares hc (declares_clockRefs hb href)
  -- parts are named by functions and patterns, and references by what is declared
  refine ⟨partsNamed hc, fun scope hscope stmt hstmt => ?_, fun stmt hstmt function hfunction => ?_,
    fun w hw => ?_, fun clock hclock => ?_⟩
  · cases stmt with
    | callSymbol function =>
      have hwritten : c.Written art (c.outlineScript art) := ⟨rfl, rfl, rfl⟩
      obtain ⟨p, hp, rfl⟩ := hwritten.exists_pattern_of_callsSymbol ⟨scope, hscope, hstmt⟩
      exact Artwork.isName_functionName hc hp
    | _ => trivial
  · obtain ⟨call, hcall, hstmt⟩ := List.mem_flatMap.mp hstmt
    obtain ⟨⟨i, d⟩, hd, rfl⟩ := List.mem_map.mp hcall
    rcases function_of_mem_frame hstmt hfunction with rfl | ⟨g, hg, rfl⟩
    · exact hb.name _ (List.mem_of_getElem? (FunctionTable.mem_draws_iff.mp hd))
    · exact hb.name g hg
  · have hmem : ∀ ref ∈ [w.source, w.target], ref ∈ (c.outlineScript art).clockRefs o :=
      fun ref href => List.mem_append_left _ (List.mem_append_right _
        (List.mem_flatMap.mpr ⟨w, hw, href⟩))
    exact ⟨hrefs _ (hmem _ (by simp)), hrefs _ (hmem _ (by simp))⟩
  · exact hrefs _ (List.mem_append_right _ hclock)

/-- What a script declares is made, once, and comes from a function. -/
theorem provides_of_declares (hc : art.compile options = .ok c) {ref : ClockRef}
    (href : c.Declares (c.outlineScript art) ref) :
    (Code.madeTerms ((c.outlineScript art).code o)).count ref.term = 1 ∧
      c.Provides ((c.outlineScript art).code o) ref.term := by
  have hnames := namesFunctions hc o
  rw [Script.madeTerms_code hnames, List.count_append]
  cases ref with
  | ofPath function =>
    obtain ⟨m, hm, rfl, hpath, hcount⟩ := href
    -- a path is no clock of a draw function
    have hother : (ClockRef.ofPath m.header.name).term ∉
        (c.outlineScript art).clockNames.map ClockTerm.constant := by simp [ClockRef.term]
    refine ⟨?_, m, hm, rfl, Script.pathCode_subset hpath⟩
    rw [List.count_eq_zero.mpr hother]
    exact (List.count_map_of_injective _ _ (fun _ _ => ClockTerm.ofPath.inj) _).trans hcount
  | ofDraw function kind =>
    -- and such a clock is no path
    have hother : (ClockRef.ofDraw function kind).term ∉
        (c.outlineScript art).pathNames.map ClockTerm.ofPath := by simp [ClockRef.term]
    have hmem := List.one_le_count_iff.mp (Nat.le_of_eq href.symm)
    obtain ⟨object, hobject, hname⟩ := List.mem_map.mp hmem
    have hline : object.declaration ∈ Code.clockTexts ((c.outlineScript art).code o) := by
      rw [Script.clockTexts_code hnames]
      exact List.mem_append_left _ (List.mem_append_left _ (List.mem_append_right _
        (List.mem_map_of_mem hobject)))
    obtain ⟨⟨i, d⟩, hd, hobject⟩ := List.mem_flatMap.mp hobject
    obtain ⟨clock, hclock, rfl⟩ := List.mem_map.mp hobject
    refine ⟨?_, d, List.mem_of_getElem? (FunctionTable.mem_draws_iff.mp hd), clock,
      (List.mem_filter.mp hclock).1, hname, (List.mem_filter.mp hline).1⟩
    rw [List.count_eq_zero.mpr hother, Nat.zero_add]
    exact (List.count_map_of_injective _ _ (fun _ _ => ClockTerm.constant.inj) _).trans href

/-- What is used is made, once, declared, and comes from a function. -/
theorem provides_of_mem_usedTerms (hc : art.compile options = .ok c) {term : ClockTerm}
    (hterm : term ∈ Code.usedTerms o.contextName ((c.outlineScript art).code o)) :
    (Code.madeTerms ((c.outlineScript art).code o)).count term = 1 ∧
      term.name ∈ Code.declaredNames ((c.outlineScript art).code o) ∧
      c.Provides ((c.outlineScript art).code o) term := by
  have hnames := namesFunctions hc o
  obtain ⟨ref, href, rfl⟩ := Script.exists_clockRef_of_mem_usedTerms hnames hterm
  obtain ⟨hcount, hprovides⟩ :=
    provides_of_declares hc (declares_clockRefs (Artwork.bound_of_compile hc) href)
  exact ⟨hcount, Script.name_mem_declaredNames hnames
    (List.one_le_count_iff.mp (Nat.le_of_eq hcount.symm)), hprovides⟩

end Compiled

/-- Whatever art a host shows: if it can be compiled, the text that is emitted for it is that of
code whose clocks and paths fit together. What a frame reads, what is listened to or driven, and
what is started is made by exactly one line, declared, and comes from a function: a clock of a draw
function has a line of its own, and what is followed is the path of a compiled animation function,
which is written as a whole. Each trigger with a known source has exactly one line that wires its
clocks. Where anything can move, exactly one line starts each running clock, unless the clock is
driven by a trigger, and then none does. And if a clock or a path is made, a clock runs, or a
trigger has a known source, then the document can move. -/
theorem Artwork.clocks_closed [CurveLibrary] (art : Artwork) (options : CompileOptions)
    (c : Compiled) (hc : art.compile options = .ok c) :
    ∃ script, c.script art c.outline.renderer = .ok script ∧
      ∀ o : EmitOptions, c.emit art o = .ok (Code.render (script.code o)) ∧
        (∀ term ∈ Code.usedTerms o.contextName (script.code o),
          (Code.madeTerms (script.code o)).count term = 1 ∧
            term.name ∈ Code.declaredNames (script.code o) ∧ c.Provides (script.code o) term) ∧
        (Code.wiringTexts (script.code o)).map some =
          c.resolvedTriggers.map (fun entry => (c.wiring? entry).map Wiring.line) ∧
        (c.animated = true → ∀ (i : Nat) (f : ArtFunction) (clock : Clock Float),
          c.functions.functions[i]? = some f → clock ∈ f.clocks → clock.isActive = true →
            (Code.lineTextsOf (script.code o)).count (f.clockRef clock.kind).startLine =
              if c.isTarget i clock.kind then 0 else 1) ∧
        (Code.madeTerms (script.code o) ≠ [] ∨
          (∃ f ∈ c.functions.functions, ∃ clock ∈ f.clocks, clock.isActive = true) ∨
          c.resolvedTriggers ≠ [] → c.animated = true) := by
  have hb := bound_of_compile hc
  have hanimated := (comesFrom_of_compile hc).animated
  have hscript := Compiled.script_outline c art
  obtain ⟨-, hstarts⟩ := c.startup_outlineScript art
  refine ⟨c.outlineScript art, hscript, fun o => ?_⟩
  have hnames := Compiled.namesFunctions hc o
  have htext := Compiled.emit_of_script hscript o
  rw [Script.text_eq] at htext
  refine ⟨htext, fun _ => Compiled.provides_of_mem_usedTerms hc, ?_,
    fun hmoves i f clock hf hclock hactive => ?_, fun hmoving => ?_⟩
  · -- every resolved trigger has a wiring, as both its clocks are there
    have hwirings : (c.outlineScript art).wirings.map some = c.resolvedTriggers.map c.wiring? :=
      Compiled.map_some_wirings_outlineScript hanimated hb
    have hlines := congrArg (List.map (Option.map Wiring.line)) hwirings
    rw [List.map_map, List.map_map] at hlines
    rw [Script.wiringTexts_code hnames, List.map_map]
    exact hlines
  · have hclocks := Compiled.mem_clockRefs hf hclock
    rw [Script.count_startLine hnames (Compiled.isName_of_mem_clockRefs hb hclocks), hstarts,
      if_pos hmoves, Compiled.count_text hb Compiled.starts_sublist hclocks]
    simp only [Compiled.mem_starts_iff hb hf hclock, hactive, true_and]
    cases c.isTarget i clock.kind <;> rfl
  · refine Compiled.animated_of_moving hanimated art ?_
    rw [Script.madeTerms_code hnames] at hmoving
    rcases hmoving with hmade | hrest
    · by_contra hnone
      simp only [not_or, ne_eq, not_not] at hnone
      exact hmade (by simp [Script.pathNames, Script.clockNames, hnone.1, hnone.2.1])
    · exact Or.inr (Or.inr hrest)

namespace ArtDocument

/-- A ball that turns, follows a path, and grows when it has come to the end of it. -/
def rollingBall : ArtDocument where
  layers := #[
    { name := "ball(rotate-duration:2; animation:track; scale-trigger:track.path.finished)"
      art := some 0 },
    { name := "track(type:animation)", art := some 1 }]
  nodes := #[{ bounds := unitBox }, { bounds := unitBox, path := some "M0 0 L1 0" }]

/-- The lines of `rollingBall` make two clocks and a path, of which a frame reads the path, in both
directions, and the clock that runs. One clock is wired to another one, and the two clocks that run
are started. -/
theorem clocks_closed_rollingBall :
    rollingBall.Valid ∧ ∃ c script, rollingBall.view.compile {} = .ok c ∧
      c.script rollingBall.view c.outline.renderer = .ok script ∧
      Code.madeTerms (script.code {}) =
        [.ofPath "track", .constant "ballRotateClock", .constant "ballScaleClock"] ∧
      Code.usedTerms ({} : EmitOptions).contextName (script.code {}) =
        [.ofPath "track", .ofPath "track", .constant "ballRotateClock", .ofPath "track",
          .constant "ballScaleClock", .ofPath "track", .constant "ballRotateClock"] ∧
      Code.wiringTexts (script.code {}) =
        ["track.pathClock.finished.on(() => ballScaleClock.start());"] ∧
      (∀ term ∈ Code.usedTerms ({} : EmitOptions).contextName (script.code {}),
        (Code.madeTerms (script.code {})).count term = 1) ∧ c.animated = true := by
  have hvalid : rollingBall.Valid := by decide +kernel
  have hcompile : (rollingBall.view.compile {}).toOption.any (fun c =>
      (c.script rollingBall.view c.outline.renderer).toOption.any fun script =>
        decide (script.pathNames = ["track"] ∧
          script.clockNames = ["ballRotateClock", "ballScaleClock"] ∧
          (script.frameBody {}).flatMap FrameStmt.terms =
            [.ofPath "track", .ofPath "track", .constant "ballRotateClock"] ∧
          script.wirings.map Wiring.line =
            ["track.pathClock.finished.on(() => ballScaleClock.start());"] ∧
          script.wirings.flatMap (fun w => [w.source.term, w.target.term]) =
            [.ofPath "track", .constant "ballScaleClock"] ∧
          script.starts.map ClockRef.term =
            [.ofPath "track", .constant "ballRotateClock"])) = true := by
    decide +kernel
  obtain ⟨c, hc, hscript⟩ := exists_ok_of_any hcompile
  obtain ⟨script, hscript, hparts⟩ := exists_ok_of_any hscript
  obtain ⟨hpaths, hclocks, hframe, hlines, hwirings, hstarts⟩ := of_decide_eq_true hparts
  obtain ⟨script', hscript', hclosed⟩ := Artwork.clocks_closed rollingBall.view {} c hc
  cases hscript.symm.trans hscript'
  cases hscript.symm.trans (Compiled.script_outline c _)
  have hnames : (c.outlineScript rollingBall.view).NamesFunctions {} :=
    Compiled.namesFunctions hc {}
  have hmade : Code.madeTerms ((c.outlineScript rollingBall.view).code {}) =
      [.ofPath "track", .constant "ballRotateClock", .constant "ballScaleClock"] := by
    rw [Script.madeTerms_code hnames, hpaths, hclocks]
    rfl
  obtain ⟨-, hused, -, -, hmoves⟩ := hclosed {}
  refine ⟨hvalid, c, _, hc, hscript, hmade, ?_, (Script.wiringTexts_code hnames).trans hlines,
    fun term hterm => (hused term hterm).1, hmoves (Or.inl (by rw [hmade]; exact nofun))⟩
  rw [Script.usedTerms_code hnames, hframe, hwirings, hstarts]
  rfl

end ArtDocument

end ArtCanvas
