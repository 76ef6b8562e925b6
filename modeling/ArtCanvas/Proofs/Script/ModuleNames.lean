import ArtCanvas.Proofs.Identifier.Name
import ArtCanvas.Proofs.Script.Clocks

/-!
# The names that a script declares

The pieces of a script at the outermost level are read for the names that they declare. What is read
is then found to be what the parts of the script are called, in the order of the parts.

* `Code.declaredNames`: the names that are read off pieces of code.
* `Script.moduleNames`: the names of the parts of a script.
* `Script.declaredNames_code`: both are the same.
-/

namespace ArtCanvas

namespace Identifier

/-- A word in front of the text ends there, as the text does not begin with a character of names. -/
def EndsWord (text : String) : Prop := ∀ c cs, text.toList = c :: cs → isWordChar c = false

theorem endsWord_empty : EndsWord "" := nofun

/-- No word goes on at a text that starts with another character. -/
theorem endsWord_ofList {c : Char} {cs : List Char} (hc : isWordChar c = false) :
    EndsWord (String.ofList (c :: cs)) := by
  intro d ds heq
  rw [String.toList_ofList] at heq
  cases heq
  exact hc

/-- That holds whatever follows. -/
theorem endsWord_append {c : Char} {cs : List Char} (hc : isWordChar c = false) (rest : String) :
    EndsWord (String.ofList (c :: cs) ++ rest) := by
  intro d ds heq
  rw [String.toList_append, String.toList_ofList] at heq
  cases heq
  exact hc

/-- What is read up to the end of a word is the word. -/
theorem takeWhile_word {word : List Char} (hword : word.all isWordChar = true) {rest : String}
    (hrest : EndsWord rest) : (word ++ rest.toList).takeWhile isWordChar = word := by
  rw [List.takeWhile_append_of_pos (List.all_eq_true.mp hword)]
  cases hchars : rest.toList with
  | nil => rw [List.takeWhile_nil, List.append_nil]
  | cons c cs => rw [List.takeWhile_cons_of_neg (by simp [hrest c cs hchars]), List.append_nil]

end Identifier

open Identifier (isWordChar EndsWord)

/-- The words that say what is declared. -/
def declarationWords : List String := ["const", "let", "var", "function", "class", "type"]

/-- The beginnings of lines that declare a name. -/
def declarationStarts : List String :=
  declarationWords.map (· ++ " ") ++ declarationWords.map ("export " ++ · ++ " ")

/-- The three starts of declarations that generated code has. -/
theorem mem_declarationStarts : "function " ∈ declarationStarts ∧
    "export const " ∈ declarationStarts ∧ "export function " ∈ declarationStarts := by
  simp [declarationStarts, declarationWords]

/-- The name that a line declares. -/
def declaredBy (line : String) : Option String :=
  declarationStarts.findSome? fun start =>
    (Text.dropStart? start.toList line.toList).map fun rest =>
      String.ofList (rest.takeWhile isWordChar)

namespace Code

/-- The name that a piece of code declares. What is declared inside a block is known there only. -/
def declared? : Code → Option String
  | .line text => declaredBy text
  | .blank => none
  | .block opening _ _ => declaredBy opening

/-- The names that pieces of code declare. -/
def declaredNames (code : List Code) : List String := code.filterMap declared?

end Code

/-- Behind the beginning of a declaration stands the name that is declared. -/
theorem declaredBy_of_start {start name rest : String} (hstart : start ∈ declarationStarts)
    (hname : name.toList.all isWordChar = true) (hrest : EndsWord rest) :
    declaredBy (start ++ (name ++ rest)) = some name := by
  -- no beginning is found in front of another one
  have hread : ∀ text : String,
      declaredBy (start ++ text) = some (String.ofList (text.toList.takeWhile isWordChar)) := by
    intro text
    simp only [declarationStarts, declarationWords, List.map_cons, List.map_nil, List.cons_append,
      List.nil_append, List.mem_cons, List.not_mem_nil, or_false] at hstart
    rcases hstart with
      rfl | rfl | rfl | rfl | rfl | rfl | rfl | rfl | rfl | rfl | rfl | rfl <;>
      simp [declaredBy, declarationStarts, declarationWords, Text.dropStart?]
  rw [hread, String.toList_append, Identifier.takeWhile_word hname hrest, String.ofList_toList]

/-- A line that declares a name begins with a word and a space. -/
theorem exists_word_of_declaredBy {line name : String} (h : declaredBy line = some name) :
    ∃ word rest, line.toList = word ++ ' ' :: rest ∧ word ≠ [] ∧ word.all isWordChar = true := by
  -- every beginning has a word and then a space
  have hstarts : ∀ start ∈ declarationStarts,
      start.toList.takeWhile isWordChar ≠ [] ∧
        (start.toList.dropWhile isWordChar).head? = some ' ' := by
    decide +kernel
  obtain ⟨start, hstart, hread⟩ := List.exists_of_findSome?_eq_some h
  obtain ⟨rest, hdrop, -⟩ := Option.map_eq_some_iff.mp hread
  rw [Text.dropStart?] at hdrop
  split at hdrop
  next hprefix =>
    obtain ⟨more, hline⟩ := List.isPrefixOf_iff_prefix.mp hprefix
    obtain ⟨hword, hspace⟩ := hstarts start hstart
    refine ⟨_, (start.toList.dropWhile isWordChar).tail ++ more, ?_, hword, List.all_takeWhile⟩
    rw [← hline, ← List.cons_append, ← List.eq_cons_of_mem_head? hspace, ← List.append_assoc,
      List.takeWhile_append_dropWhile]
  next => cases hdrop

/-- A line that does not begin with a word declares nothing. -/
theorem declaredBy_of_endsWord {line : String} (h : EndsWord line) : declaredBy line = none := by
  rw [Option.eq_none_iff_forall_ne_some]
  intro name hname
  obtain ⟨word, rest, hline, hword, hchars⟩ := exists_word_of_declaredBy hname
  cases word with
  | nil => exact hword rfl
  | cons c cs =>
    rw [List.all_cons, h c _ hline] at hchars
    cases hchars

/-- A line with something else than a space behind its first word declares nothing. -/
theorem declaredBy_of_word {word rest : String} (hword : word.toList.all isWordChar = true)
    (hrest : EndsWord rest) (hspace : rest.toList.head? ≠ some ' ') :
    declaredBy (word ++ rest) = none := by
  rw [Option.eq_none_iff_forall_ne_some]
  intro name hname
  obtain ⟨word', rest', hline, -, hword'⟩ := exists_word_of_declaredBy hname
  have hspace' : EndsWord (String.ofList (' ' :: rest')) := Identifier.endsWord_ofList rfl
  rw [String.toList_append, ← String.toList_ofList (l := ' ' :: rest')] at hline
  -- both readings have the same first word, so the same text is left
  have hwords : word.toList = word' := by
    rw [← Identifier.takeWhile_word hword hrest, hline, Identifier.takeWhile_word hword' hspace']
  rw [hwords, List.append_cancel_left_eq, String.toList_ofList] at hline
  exact hspace (by rw [hline]; rfl)

namespace Code

/-- Where the code of each part declares the name of the part, the code of all parts declares their
names. -/
theorem declaredNames_flatMap {α : Type} {code : α → List Code} {name : α → String} {l : List α}
    (h : ∀ a ∈ l, declaredNames (code a) = [name a]) :
    declaredNames (l.flatMap code) = l.map name := by
  rw [declaredNames, List.filterMap_flatMap, List.map_eq_flatMap]
  exact List.flatMap_congr h

/-- Two parts declare their names one after the other. -/
theorem declaredNames_append (code code' : List Code) :
    declaredNames (code ++ code') = declaredNames code ++ declaredNames code' :=
  List.filterMap_append

/-- Lines that do not begin with a word declare nothing. -/
theorem declaredNames_lines {lines : List String} (h : ∀ line ∈ lines, EndsWord line) :
    declaredNames (lines.map .line) = [] := by
  rw [declaredNames, List.filterMap_map, List.filterMap_eq_nil_iff]
  exact fun line hline => declaredBy_of_endsWord (h line hline)

end Code

namespace Runtime

/-- Another line in front keeps the lines from going on a word. -/
theorem endsWord_cons {c : Char} {cs : List Char} {lines : List String} (hc : isWordChar c = false)
    (h : ∀ line ∈ lines, EndsWord line) :
    ∀ line ∈ String.ofList (c :: cs) :: lines, EndsWord line :=
  List.forall_mem_cons.mpr ⟨Identifier.endsWord_ofList hc, h⟩

theorem endsWord_cons_blank {lines : List String} (h : ∀ line ∈ lines, EndsWord line) :
    ∀ line ∈ "" :: lines, EndsWord line :=
  List.forall_mem_cons.mpr ⟨Identifier.endsWord_empty, h⟩

/-- The lines of an easing function start with blanks or braces. -/
theorem endsWord_easingEntry (e : Easing) : ∀ line ∈ easingEntry e, EndsWord line := by
  simp only [easingEntry, List.forall_mem_cons, String.append_assoc]
  exact ⟨Identifier.endsWord_append rfl _, Identifier.endsWord_ofList rfl,
    Identifier.endsWord_append rfl _, Identifier.endsWord_ofList rfl, nofun⟩

/-- So do the lines of the table of easing functions. -/
theorem endsWord_easingTable : ∀ line ∈ easingTable.body, EndsWord line := by
  refine List.forall_mem_append.mpr ⟨?_, endsWord_cons rfl nofun⟩
  exact List.forall_mem_flatMap.mpr fun e _ => endsWord_easingEntry e

/-- The lines of a declaration after the first one do not begin with a word: they are indented,
empty, or end a block. -/
theorem endsWord_body {d : Declaration} (hd : d ∈ declarations) :
    ∀ line ∈ d.body, EndsWord line := by
  simp only [declarations, List.mem_cons, List.not_mem_nil, or_false] at hd
  rcases hd with rfl | rfl | rfl | rfl | rfl | rfl | rfl | rfl | rfl | rfl | rfl | rfl
  pick_goal 8
  · exact endsWord_easingTable
  -- the lines are gone through from the first to the last
  all_goals
    dsimp only [timingType, eventClass, clockList, clockClass, updateFunction, bounceFunction,
      splitFunction, segmentType, pathClass, cubicFunction, slopeFunction]
    repeat' first | refine endsWord_cons rfl ?_ | refine endsWord_cons_blank ?_
    exact nofun

/-- A declaration declares its name. -/
theorem declaredBy_line {d : Declaration} (hd : d ∈ declarations) :
    declaredBy (d.keyword ++ " " ++ d.name ++ d.rest) = some d.name := by
  have hparts : d.keyword ∈ declarationWords ∧ d.name.toList.all isWordChar = true ∧
      EndsWord d.rest := by
    simp only [declarations, List.mem_cons, List.not_mem_nil, or_false] at hd
    rcases hd with rfl | rfl | rfl | rfl | rfl | rfl | rfl | rfl | rfl | rfl | rfl | rfl <;>
      exact ⟨by decide, rfl, Identifier.endsWord_ofList rfl⟩
  obtain ⟨hkeyword, hname, hrest⟩ := hparts
  have hstart : d.keyword ++ " " ∈ declarationStarts :=
    List.mem_append_left _ (List.mem_map.mpr ⟨d.keyword, hkeyword, rfl⟩)
  rw [String.append_assoc]
  exact declaredBy_of_start hstart hname hrest

/-- What stands between the declarations declares nothing, and each declaration declares its
name. -/
theorem filterMap_declarations {ds : List Declaration} (hds : ds ⊆ declarations) :
    ([""].intercalate (ds.map Declaration.lines)).filterMap declaredBy =
      ds.map Declaration.name := by
  -- only the first line of a declaration declares
  have hlines : ∀ d ∈ declarations, d.lines.filterMap declaredBy = [d.name] := by
    intro d hd
    rw [Declaration.lines, List.filterMap_cons_some (declaredBy_line hd)]
    congr 1
    exact List.filterMap_eq_nil_iff.mpr fun line hline =>
      declaredBy_of_endsWord (endsWord_body hd line hline)
  induction ds with
  | nil => rfl
  | cons d ds ih =>
    obtain ⟨hd, hds⟩ := List.cons_subset.mp hds
    cases ds with
    | nil => simp [List.intercalate, hlines d hd]
    | cons d' ds =>
      rw [List.map_cons, List.map_cons, List.intercalate_cons_cons, ← List.map_cons,
        List.filterMap_append, List.filterMap_append, hlines d hd, ih hds]
      rfl

/-- The clock code declares the names that it takes. -/
theorem declaredNames_runtime : Code.declaredNames (lines.map .line) = names := by
  rw [Code.declaredNames, List.filterMap_map]
  exact filterMap_declarations (List.Subset.refl _)

/-- The names that the clock code takes, written out. -/
theorem names_eq : names = ["TimingFunction", "ClockEvent", "clocks", "Clock", "updateClocks",
    "bounceOut", "inOut", "timing", "Segment", "MotionPath", "cubic", "cubicSlope"] := rfl

end Runtime

/-- A name stays a word when it is escaped. -/
theorem Identifier.IsName.all_escape {name : String} (h : IsName name) :
    (escape name).toList.all isWordChar = true := by
  rcases escape_cases name with hname | hname <;> rw [hname]
  · rw [String.toList_append, List.all_append, h.word]
    rfl
  · exact h.word

/-- With the ending of a clock a name is still one. -/
theorem Identifier.IsName.append_ending {name : String} (h : IsName name) (kind : ClockKind) :
    IsName (drawClockName name kind) :=
  h.append (by cases kind <;> decide)

namespace Script

variable (o : EmitOptions) (s : Script)

/-- The names of the parts at the outermost level, in the order of the parts. -/
def moduleNames : List String :=
  (if s.startup.isSome && o.includeRuntime then Runtime.names else []) ++ ["bounds"] ++
    s.symbols.map (fun f => Identifier.escape f.name) ++
    (if s.tiles.isEmpty then [] else ["drawPatterns"]) ++
    s.objects.map (fun object => Identifier.escape object.function) ++ s.pathNames ++
    s.clockNames ++ ["drawFrame"] ++ ["render"]

/-- What the parts are called in the document is of the shape of names. -/
structure PartsNamed : Prop where
  symbols : ∀ f ∈ s.symbols, Identifier.IsName f.name
  objects : ∀ object ∈ s.objects, Identifier.IsName object.function
  paths : ∀ path ∈ s.paths, Identifier.IsName path.function
  clocks : ∀ clock ∈ s.clocks, Identifier.IsName clock.function

variable {o s}

/-- The first line of a function declares the function. -/
theorem declaredBy_functionLine {start name : String} (hstart : start ∈ declarationStarts)
    (hname : name.toList.all isWordChar = true) (ctx : String) :
    declaredBy (start ++ functionLine name ctx) = some name := by
  simp only [functionLine, String.append_assoc]
  exact declaredBy_of_start hstart hname (Identifier.endsWord_append rfl _)

/-- A symbol declares its function. -/
theorem declaredNames_symbol {f : SymbolFunction} (h : Identifier.IsName f.name) (ctx : String) :
    Code.declaredNames (f.code ctx) = [Identifier.escape f.name] := by
  have hline : declaredBy ("function " ++ functionLine (Identifier.escape f.name) ctx) =
      some (Identifier.escape f.name) :=
    declaredBy_functionLine mem_declarationStarts.1 h.all_escape ctx
  simp [Code.declaredNames, SymbolFunction.code, Code.declared?, hline]

/-- The object of a draw function is declared under the name of the function. -/
theorem declaredNames_object {object : DrawObject} (h : Identifier.IsName object.function)
    (ctx : String) :
    Code.declaredNames (object.code ctx) = [Identifier.escape object.function] := by
  have hline : declaredBy ("export const " ++ Identifier.escape object.function ++ " = \x7b") =
      some (Identifier.escape object.function) := by
    rw [String.append_assoc]
    exact declaredBy_of_start mem_declarationStarts.2.1 h.all_escape
      (Identifier.endsWord_ofList rfl)
  -- the line that sets the source of an image begins with the name of the object
  have hsource : ∀ file : String, declaredBy (Identifier.escape object.function ++
      ".image.src = " ++ Text.quote file ++ ";") = none := by
    intro file
    simp only [String.append_assoc]
    refine declaredBy_of_word h.all_escape (Identifier.endsWord_append rfl _) ?_
    rw [String.toList_append]
    exact fun heq => nomatch heq
  unfold DrawObject.code
  dsimp only
  cases object.file? <;> simp [Code.declaredNames, Code.declared?, hline, hsource]

/-- The object of a path is declared under the name of its function. -/
theorem declaredNames_path {path : PathObject} (h : Identifier.IsName path.function) :
    Code.declaredNames path.code = [Identifier.escape path.function] := by
  have hline : declaredBy path.opening = some (Identifier.escape path.function) := by
    rw [PathObject.opening, String.append_assoc]
    exact declaredBy_of_start mem_declarationStarts.2.1 h.all_escape
      (Identifier.endsWord_ofList rfl)
  simp [Code.declaredNames, PathObject.code, Code.declared?, hline]

/-- Each clock of a draw function is declared under its own name. -/
theorem declaredNames_clocks {clocks : List ClockObject}
    (h : ∀ clock ∈ clocks, Identifier.IsName clock.function) :
    Code.declaredNames (clocksCode clocks) =
      clocks.map fun clock => drawClockName clock.function clock.clock.kind := by
  have hline : ∀ clock ∈ clocks,
      declaredBy clock.declaration = some (drawClockName clock.function clock.clock.kind) := by
    intro clock hclock
    simp only [ClockObject.declaration, String.append_assoc]
    exact declaredBy_of_start mem_declarationStarts.2.1
      ((h clock hclock).append_ending clock.clock.kind).word (Identifier.endsWord_append rfl _)
  unfold clocksCode
  split
  next hnone =>
    rw [List.isEmpty_iff.mp hnone]
    rfl
  next =>
    have hblank : Code.declaredNames [.blank] = [] := rfl
    rw [Code.declaredNames_append, hblank, List.append_nil, Code.declaredNames, List.filterMap_map,
      ← List.filterMap_eq_map']
    refine List.filterMap_congr fun clock hclock => ?_
    rw [Function.comp_apply, Code.declared?, hline clock hclock]

/-- The runtime code declares its own names, where it is written at all. -/
theorem declaredNames_runtimeCode : Code.declaredNames (s.runtimeCode o) =
    if s.startup.isSome && o.includeRuntime then Runtime.names else [] := by
  unfold runtimeCode
  split
  · rw [Code.declaredNames_append, Runtime.declaredNames_runtime]
    exact List.append_nil _
  · rfl

/-- The function that paints the hidden canvases is declared by its first line. -/
theorem declaredBy_drawPatterns :
    declaredBy "export function drawPatterns(): void \x7b" = some "drawPatterns" := by
  -- the line is cut in front of the name and behind it
  have hparts : "export function drawPatterns(): void \x7b" =
      "export function " ++ ("drawPatterns" ++ "(): void \x7b") := rfl
  rw [hparts]
  exact declaredBy_of_start mem_declarationStarts.2.2 (by decide) (Identifier.endsWord_ofList rfl)

/-- The hidden canvases of a page are painted by one function. -/
theorem declaredNames_tiles (ctx : String) (tiles : List Tile) :
    Code.declaredNames (tilesCode ctx tiles) =
      if tiles.isEmpty then [] else ["drawPatterns"] := by
  unfold tilesCode
  split
  · rfl
  · simp [Code.declaredNames, Code.declared?, declaredBy_drawPatterns]

/-- A frame is painted by `drawFrame`. -/
theorem declaredNames_frameCode : Code.declaredNames (s.frameCode o) = ["drawFrame"] := by
  have hline : declaredBy ("export function " ++ functionLine "drawFrame" o.contextName) =
      some "drawFrame" :=
    declaredBy_functionLine mem_declarationStarts.2.2 (by decide) o.contextName
  simp [Code.declaredNames, frameCode, Code.declared?, hline]

/-- Remarks declare nothing. -/
theorem declaredNames_summaryCode : Code.declaredNames (s.summaryCode o) = [] := by
  unfold summaryCode
  split
  · have hremark : ∀ line ∈ s.summary.map ("// " ++ ·), EndsWord line := by
      intro line hline
      obtain ⟨text, -, rfl⟩ := List.mem_map.mp hline
      exact Identifier.endsWord_append rfl _
    have hnone := Code.declaredNames_lines hremark
    rwa [List.map_map] at hnone
  · rfl

/-- A script is started by `render`. -/
theorem declaredNames_renderCode : Code.declaredNames (s.renderCode o) = ["render"] := by
  have hline : declaredBy ("export function render(canvas: HTMLCanvasElement = " ++
      canvasExpression o.canvasId ++ "): void \x7b") = some "render" := by
    have hparts : "export function render(canvas: HTMLCanvasElement = " =
        "export function " ++ ("render" ++ "(canvas: HTMLCanvasElement = ") := rfl
    simp only [hparts, String.append_assoc]
    exact declaredBy_of_start mem_declarationStarts.2.2 (by decide)
      (Identifier.endsWord_append rfl _)
  simp [Code.declaredNames, renderCode, Code.declared?, hline]

/-- The page declares its box. -/
theorem declaredNames_bounds (b : Box Float) :
    Code.declaredNames [.line ("export const bounds = " ++ b.literal ++ ";"), .blank] =
      ["bounds"] := by
  have hline : declaredBy ("export const bounds = " ++ b.literal ++ ";") = some "bounds" := by
    have hparts : "export const bounds = " = "export const " ++ ("bounds" ++ " = ") := rfl
    simp only [hparts, String.append_assoc]
    exact declaredBy_of_start mem_declarationStarts.2.1 (by decide)
      (Identifier.endsWord_append rfl _)
  simp [Code.declaredNames, Code.declared?, hline]

/-- The heading of a script declares nothing. -/
theorem declaredNames_opening :
    Code.declaredNames [.line "// Generated by canvas-export. Do not edit.", .blank] = [] := by
  have hremark : declaredBy "// Generated by canvas-export. Do not edit." = none :=
    declaredBy_of_endsWord (Identifier.endsWord_ofList rfl)
  simp [Code.declaredNames, Code.declared?, hremark]

/-- What is declared is what the parts are called. -/
theorem declaredNames_code (h : s.PartsNamed) (o : EmitOptions) :
    Code.declaredNames (s.code o) = s.moduleNames o := by
  unfold code moduleNames pathNames clockNames
  simp only [Code.declaredNames_append, declaredNames_opening, declaredNames_runtimeCode,
    declaredNames_bounds, declaredNames_tiles, declaredNames_frameCode, declaredNames_renderCode,
    declaredNames_summaryCode, declaredNames_clocks h.clocks,
    Code.declaredNames_flatMap fun f hf => declaredNames_symbol (h.symbols f hf) o.contextName,
    Code.declaredNames_flatMap fun f hf => declaredNames_object (h.objects f hf) o.contextName,
    Code.declaredNames_flatMap fun f hf => declaredNames_path (h.paths f hf),
    List.nil_append, List.append_nil]

end Script

end ArtCanvas
