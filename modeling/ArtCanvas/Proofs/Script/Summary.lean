import ArtCanvas.Proofs.Compile.Quotes
import ArtCanvas.Proofs.Script.Declarations
import ArtCanvas.Proofs.Script.Writing

/-!
# The summary behind a script

If that is asked for, a script ends with a summary of functions, patterns and warnings. Each line of
it is written as a remark, as if it were one line. Names are, but the warnings quote the artwork.

* `Script.render_summaryCode`: the text of the summary.
* `Artwork.summary_remarks_iff`: the summary is nothing but remarks exactly if the warnings that
  quote the artwork go on in remarks after each line end.
-/

namespace ArtCanvas

/-! ### The text of the summary -/

namespace Script

/-- The text of the summary: an empty line, and then each line as if it were a remark. -/
theorem render_summaryCode {o : EmitOptions} (hdebug : o.debug = true) (s : Script) :
    Code.render (s.summaryCode o) =
      "" ++ "\n" ++ String.join (s.summary.map fun line => "// " ++ line ++ "\n") := by
  have hlines : ∀ lines : List String, Code.render (lines.map fun line => .line ("// " ++ line)) =
      String.join (lines.map fun line => "// " ++ line ++ "\n") := by
    intro lines
    induction lines with
    | nil => rfl
    | cons line lines ih =>
      -- the writer would not indent an empty line, but a remark is not empty
      have hsome : "// " ++ line ≠ "" := by
        intro hnone
        have hlength := congrArg String.length hnone
        rw [String.length_append] at hlength
        exact absurd hlength (by simp)
      rw [List.map_cons, List.map_cons, ← List.singleton_append, Code.render_append, ih,
        String.join_cons, Code.render_line hsome]
  rw [summaryCode, if_pos hdebug, ← List.singleton_append, Code.render_append, hlines]
  rfl

end Script

/-- What is said of a function that refers to others by names is on one line. -/
theorem ArtFunction.RefersByName.oneLine_entry {f : ArtFunction} (h : f.RefersByName)
    {unit : String} (hunit : Text.OneLine unit) (count : Nat) :
    Text.OneLine ("- " ++ f.name ++ (unit ++ toString count ++ ", requested=") ++ f.requested) := by
  have hname : Text.OneLine f.name := Text.oneLine_of_isName h.name
  have hrequested : Text.OneLine f.requested := Text.oneLine_of_isName h.requested
  simp only [Text.oneLine_append, hname, hunit, hrequested, Text.oneLine_toString, and_true]
  decide +kernel

namespace Artwork

variable [CurveLibrary] {art : Artwork} {options : CompileOptions} {c : Compiled}

/-- What the summary says about functions, it says on one line each. -/
theorem oneLine_summaryLines (hc : art.compile options = .ok c) :
    ∀ line ∈ c.functions.summaryLines, Text.OneLine line := by
  have hfunctions := refersByName_of_compile hc
  -- numbers are written with digits, so the headings are lines whatever they count
  have hcount : ∀ n : Nat, Text.OneLine s!"Draw functions: {n}" ∧
      Text.OneLine s!"Animation functions: {n}" := by
    intro n
    have hn := Text.oneLine_toString n
    simp only [Text.oneLine_append, hn, and_true]
    decide +kernel
  intro line hline
  unfold FunctionTable.summaryLines at hline
  dsimp only at hline
  rcases List.mem_append.mp hline with hline | hline
  · rcases List.mem_cons.mp hline with rfl | hline
    · exact (hcount _).1
    · obtain ⟨entry, hentry, rfl⟩ := List.mem_map.mp hline
      have hf := hfunctions _ (List.mem_of_getElem? (FunctionTable.mem_draws_iff.mp hentry))
      have hunit : Text.OneLine ": layers=" := by decide +kernel
      exact hf.oneLine_entry hunit entry.2.layers.length
  · split at hline
    · cases hline
    · rcases List.mem_cons.mp hline with rfl | hline
      · exact (hcount _).2
      · obtain ⟨entry, hentry, rfl⟩ := List.mem_map.mp hline
        have hf := hfunctions _ (List.mem_of_getElem? (FunctionTable.mem_animations_iff.mp hentry))
        have hunit : Text.OneLine ": segments=" := by decide +kernel
        exact hf.oneLine_entry hunit entry.2.segments.length

theorem oneLine_patternLine (hc : art.compile options = .ok c) {p : Pattern}
    (hp : p ∈ c.patterns.patterns) : Text.OneLine (Compiled.patternLine p) := by
  have hname := Text.oneLine_of_isName (isName_patternName hc hp)
  have hsymbol : Text.OneLine (toString p.isSymbol) := by cases p.isSymbol <;> decide +kernel
  have hcanvas : Text.OneLine ((p.canvas.map toString).getD "none") := by
    cases p.canvas with
    | none =>
      change Text.OneLine "none"
      decide +kernel
    | some canvas => exact Text.oneLine_toString canvas
  unfold Compiled.patternLine
  simp only [Text.oneLine_append, hname, hsymbol, hcanvas, and_true]
  decide +kernel

/-- The lines of the summary go on in remarks exactly if the warnings that quote the artwork do. -/
theorem goesOnInRemarks_summary_iff (hc : art.compile options = .ok c) :
    (∀ line ∈ c.summaryLines, Text.GoesOnInRemarks line) ↔
      ∀ w ∈ c.warnings, w.quotesArt = true → Text.GoesOnInRemarks w.text := by
  have hfront : Text.OneLine "warning: " := by decide +kernel
  -- only the warnings in the summary can have line ends
  rw [Compiled.summaryLines, List.forall_mem_append, List.forall_mem_append, List.forall_mem_map,
    List.forall_mem_map]
  simp only [Text.goesOnInRemarks_append hfront]
  constructor
  · exact fun h w hw _ => h.2 w hw
  · intro h
    refine ⟨⟨fun line hline => (oneLine_summaryLines hc line hline).goesOnInRemarks,
      fun p hp => (oneLine_patternLine hc hp).goesOnInRemarks⟩, fun w hw => ?_⟩
    by_cases hquotes : w.quotesArt = true
    · exact h w hw hquotes
    · exact (oneLine_of_not_quotesArt hc hw hquotes).goesOnInRemarks

/-- If a summary is asked for, it comes right after the function that starts painting. It is nothing
but remarks and blank lines exactly if all warnings that quote the artwork go on in remarks after
their first line, which they do if the names of all visible layers are on one line. -/
theorem summary_remarks_iff (hc : art.compile options = .ok c) (o : EmitOptions)
    (hdebug : o.debug = true) :
    ∃ script before, c.script art c.outline.renderer = .ok script ∧
      script.code o = before ++ script.renderCode o ++ script.summaryCode o ∧
      c.emit art o = .ok (Code.render (before ++ script.renderCode o) ++
        Code.render (script.summaryCode o)) ∧
      (Text.RemarksOnly (Code.render (script.summaryCode o)) ↔
        ∀ w ∈ c.warnings, w.quotesArt = true → Text.GoesOnInRemarks w.text) ∧
      ((∀ layer ∈ art.visibleLayers, Text.OneLine (art.layerName layer)) →
        Text.RemarksOnly (Code.render (script.summaryCode o))) := by
  have hscript := c.script_outline art
  have hcode : ∃ before, (c.outlineScript art).code o =
      before ++ (c.outlineScript art).renderCode o ++ (c.outlineScript art).summaryCode o :=
    ⟨_, rfl⟩
  obtain ⟨before, hcode⟩ := hcode
  have htail : Text.RemarksOnly (Code.render ((c.outlineScript art).summaryCode o)) ↔
      ∀ w ∈ c.warnings, w.quotesArt = true → Text.GoesOnInRemarks w.text := by
    -- the empty line in front is blank, and the other lines are written as remarks
    rw [Script.render_summaryCode hdebug, Text.remarksOnly_append_lineFeed,
      Text.remarksOnly_lines_iff, ← goesOnInRemarks_summary_iff hc]
    exact and_iff_right Text.remarksOnly_empty
  refine ⟨c.outlineScript art, before, hscript, hcode, ?_, htail, fun hnames => ?_⟩
  · rw [Compiled.emit_of_script hscript, Script.text_eq, hcode, Code.render_append]
  · exact htail.mpr fun w hw _ => (oneLine_of_layerNames hc hnames hw).goesOnInRemarks

end Artwork

namespace ArtDocument

/-- A layer with an option whose key is not known. -/
def unknownKey (key : String) : ArtDocument where
  layers := #[{ name := "a(" ++ key ++ ":1)", art := some 0 }]
  nodes := #[{ bounds := unitBox }]

/-- A key on one line is quoted in a remark. -/
theorem summary_remarks_unknownKey :
    (unknownKey "x").Valid ∧ ∃ c script, (unknownKey "x").view.compile {} = .ok c ∧
      c.warnings = [.unknownOption "a" "x"] ∧
      c.script (unknownKey "x").view c.outline.renderer = .ok script ∧
      Text.RemarksOnly (Code.render (script.summaryCode { debug := true })) := by
  have hvalid : (unknownKey "x").Valid := by decide +kernel
  have hcompile : ((unknownKey "x").view.compile {}).toOption.any (fun c =>
      decide (c.warnings = [.unknownOption "a" "x"])) = true := by decide +kernel
  have hnames : ∀ layer ∈ (unknownKey "x").view.visibleLayers,
      Text.OneLine ((unknownKey "x").view.layerName layer) := by decide +kernel
  obtain ⟨c, hc, hwarnings⟩ := exists_ok_of_any hcompile
  obtain ⟨script, before, hscript, -, -, -, honly⟩ :=
    Artwork.summary_remarks_iff hc { debug := true } rfl
  exact ⟨hvalid, c, script, hc, of_decide_eq_true hwarnings, hscript, honly hnames⟩

/-- A key with a line end and code behind it ends the remark, and the code is written as code. -/
theorem summary_not_remarks_unknownKey :
    (unknownKey "x\nthrow 0 //").Valid ∧ ∃ c script,
      (unknownKey "x\nthrow 0 //").view.compile {} = .ok c ∧
      c.script (unknownKey "x\nthrow 0 //").view c.outline.renderer = .ok script ∧
      ¬ Text.RemarksOnly (Code.render (script.summaryCode { debug := true })) := by
  have hcompile : ((unknownKey "x\nthrow 0 //").view.compile {}).toOption.any (fun c =>
      decide (c.warnings = [.unknownOption "a" "x\nthrow 0 //"])) = true := by decide +kernel
  have hbroken : ¬ Text.GoesOnInRemarks (Warning.unknownOption "a" "x\nthrow 0 //").text := by
    decide +kernel
  obtain ⟨c, hc, hwarnings⟩ := exists_ok_of_any hcompile
  refine ⟨by decide +kernel, c, _, hc, c.script_outline _, fun honly => hbroken ?_⟩
  rw [Script.render_summaryCode rfl, Text.remarksOnly_append_lineFeed,
    Text.remarksOnly_lines_iff] at honly
  refine (Artwork.goesOnInRemarks_summary_iff hc).mp honly.2 _ ?_ rfl
  rw [of_decide_eq_true hwarnings]
  exact List.mem_singleton_self _

end ArtDocument

end ArtCanvas
