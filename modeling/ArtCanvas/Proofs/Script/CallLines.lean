import ArtCanvas.Proofs.Script.ClockClosure
import ArtCanvas.Proofs.Script.SymbolRecursion
import ArtCanvas.Proofs.Script.TileOrder

/-!
# The functions that the lines of a script call

A line calls a function with the context alone where a symbol is painted, where a script paints its
hidden canvases or a frame, and where it updates its clocks. The calls of the first kind are those
of the scopes of a script.

* `calledBy`: the function that a line calls with the context alone.
* `calledBy_of_begins` and the lemmas around it: why other lines call nothing.
* `Script.calledNames_code`, `Script.mem_calledNames_iff`: the functions that the lines of a script
  call.
-/

namespace ArtCanvas

open Identifier (isWordChar EndsWord)

/-! ### Lines that call a function -/

/-- The function that a line calls with the context alone. -/
def calledBy (ctx line : String) : Option String :=
  let name := line.toList.takeWhile isWordChar
  if name ≠ [] ∧ line.toList.dropWhile isWordChar = ("(" ++ (ctx ++ ");")).toList then
    some (String.ofList name)
  else none

section CalledBy

variable {ctx line name : String}

/-- A line is read as a call exactly where it is made of a word and the context in brackets. -/
theorem calledBy_eq_some_iff : calledBy ctx line = some name ↔
    name ≠ "" ∧ name.toList.all isWordChar = true ∧ line = name ++ ("(" ++ (ctx ++ ");")) := by
  unfold calledBy
  dsimp only
  constructor
  · intro h
    split at h
    next hline =>
      obtain rfl := Option.some.inj h
      refine ⟨fun hempty => hline.1 ?_, ?_, ?_⟩
      · rw [← String.toList_ofList (l := line.toList.takeWhile isWordChar), hempty]
        rfl
      · rw [String.toList_ofList]
        exact List.all_takeWhile
      · rw [← String.toList_inj, String.toList_append, String.toList_ofList, ← hline.2,
          List.takeWhile_append_dropWhile]
    next => cases h
  · rintro ⟨hempty, hword, rfl⟩
    -- the word ends at the bracket, so the whole of it is the name
    have hrest : EndsWord ("(" ++ (ctx ++ ");")) := Identifier.endsWord_append rfl _
    have htake := Identifier.takeWhile_word hword hrest
    have hdrop := List.takeWhile_append_dropWhile (p := isWordChar)
      (l := name.toList ++ ("(" ++ (ctx ++ ");")).toList)
    rw [htake] at hdrop
    rw [String.toList_append, htake, List.append_cancel_left hdrop, String.ofList_toList]
    exact if_pos ⟨String.toList_eq_nil_iff.not.mpr hempty, rfl⟩

/-- A line that calls a function has a parenthesis behind its first word. -/
theorem calledBy_of_word {word rest : String} (hword : word.toList.all isWordChar = true)
    (hrest : EndsWord rest) (hcall : rest.toList.head? ≠ some '(') :
    calledBy ctx (word ++ rest) = none := by
  rw [Option.eq_none_iff_forall_ne_some]
  intro name hname
  obtain ⟨-, hname, hline⟩ := calledBy_eq_some_iff.mp hname
  have hend : EndsWord ("(" ++ (ctx ++ ");")) := Identifier.endsWord_append rfl _
  -- both readings have the same first word, so the same text is left
  have hwords : word = name := by
    rw [← String.toList_inj, ← Identifier.takeWhile_word hword hrest, ← String.toList_append, hline,
      String.toList_append, Identifier.takeWhile_word hname hend]
  rw [hwords, String.append_right_inj] at hline
  rw [hline, String.toList_append] at hcall
  exact hcall rfl

/-- The characters begin with a word and something else than a parenthesis. -/
def beginsUncalled (line : List Char) : Bool :=
  match line.dropWhile isWordChar with
  | [] => false
  | c :: _ => c != '('

/-- A line that begins like this calls no function. -/
theorem calledBy_of_begins {front : List Char} (h : beginsUncalled front = true) (rest : String) :
    calledBy ctx (String.ofList front ++ rest) = none := by
  unfold beginsUncalled at h
  split at h
  next => cases h
  next c cs hdrop =>
    have hc : isWordChar c = false := by
      have hhead := List.head?_dropWhile_not isWordChar front
      rw [hdrop] at hhead
      simpa using hhead
    -- the line is a word, and then a character that no word has
    have hline : String.ofList front ++ rest =
        String.ofList (front.takeWhile isWordChar) ++ (String.ofList (c :: cs) ++ rest) := by
      rw [← String.append_assoc, ← String.ofList_append, ← hdrop,
        List.takeWhile_append_dropWhile]
    rw [hline]
    refine calledBy_of_word ?_ (Identifier.endsWord_append hc rest) ?_
    · rw [String.toList_ofList]
      exact List.all_takeWhile
    · rw [String.toList_append, String.toList_ofList]
      exact fun heq => ne_of_beq_false (Bool.not_eq_true' _ |>.mp h) (Option.some.inj heq)

/-- A line that does not begin as a call is none. -/
theorem calledBy_ofList {line : List Char} (h : beginsUncalled line = true) :
    calledBy ctx (String.ofList line) = none := by
  have hnone : calledBy ctx (String.ofList line ++ "") = none := calledBy_of_begins h ""
  rwa [String.append_empty] at hnone

/-- A line that does not begin with a word is no call. -/
theorem calledBy_of_endsWord (h : EndsWord line) : calledBy ctx line = none := by
  rw [Option.eq_none_iff_forall_ne_some]
  intro name hname
  obtain ⟨hempty, hword, rfl⟩ := calledBy_eq_some_iff.mp hname
  cases hchars : name.toList with
  | nil => exact hempty (String.toList_eq_nil_iff.mp hchars)
  | cons c cs =>
    rw [hchars, List.all_cons, h c (cs ++ ("(" ++ (ctx ++ ");")).toList)
      (by rw [String.toList_append, hchars]; rfl)] at hword
    cases hword

/-- What is called stands in front of the parenthesis. -/
theorem eq_of_calledBy {word rest : String} (hword : word.toList.all isWordChar = true)
    (h : calledBy ctx (word ++ ("(" ++ rest)) = some name) : name = word := by
  obtain ⟨-, hname, hline⟩ := calledBy_eq_some_iff.mp h
  have hend : ∀ rest : String, EndsWord ("(" ++ rest) := Identifier.endsWord_append rfl
  rw [← String.toList_inj, ← Identifier.takeWhile_word hname (hend _), ← String.toList_append,
    ← hline, String.toList_append, Identifier.takeWhile_word hword (hend _)]

/-- Neither does one that begins with the context and a point, as what is called has no point. -/
theorem calledBy_of_context (h : (ctx ++ ".").toList <+: line.toList) :
    calledBy ctx line = none := by
  rw [Option.eq_none_iff_forall_ne_some]
  intro name hname
  obtain ⟨-, hword, rfl⟩ := calledBy_eq_some_iff.mp hname
  -- the context alone would have as many points as the whole line
  have hpoints := h.sublist.count_le '.'
  have hname : name.toList.count '.' = 0 :=
    List.count_eq_zero.mpr (Text.not_mem_of_all_isWordChar rfl hword)
  have hclosed : ".".toList.count '.' = 1 ∧ "(".toList.count '.' = 0 ∧
      ");".toList.count '.' = 0 := by decide
  simp only [String.toList_append, List.count_append] at hpoints
  omega

/-- Neither does one with another end. -/
theorem calledBy_of_ending (front : String) {ending : List Char}
    (h : EndsOtherwise ending ");".toList) :
    calledBy ctx (front ++ String.ofList ending) = none := by
  rw [Option.eq_none_iff_forall_ne_some]
  intro name hname
  obtain ⟨-, -, hline⟩ := calledBy_eq_some_iff.mp hname
  rw [← String.append_assoc, ← String.append_assoc, ← String.toList_inj, String.toList_append,
    String.toList_append, String.toList_ofList] at hline
  exact h.append_ne _ _ hline

end CalledBy

/-! ### Parts of a script -/

section Parts

variable {ctx : String}

/-- The functions that the lines of code call with the context alone. -/
def Code.calledNames (ctx : String) (code : List Code) : List String :=
  (Code.lineTextsOf code).filterMap (calledBy ctx)

namespace Code

/-- The calls of two parts follow each other. -/
theorem calledNames_append (code code' : List Code) :
    calledNames ctx (code ++ code') = calledNames ctx code ++ calledNames ctx code' := by
  rw [calledNames, lineTextsOf_append, List.filterMap_append]
  rfl

/-- The calls of several parts follow each other. -/
theorem calledNames_flatMap {α : Type} {f : α → List Code} {names : α → List String} {l : List α}
    (h : ∀ a ∈ l, calledNames ctx (f a) = names a) :
    calledNames ctx (l.flatMap f) = l.flatMap names := by
  induction l with
  | nil => rfl
  | cons a l ih =>
    obtain ⟨ha, hl⟩ := List.forall_mem_cons.mp h
    rw [List.flatMap_cons, calledNames_append, ha, ih hl, List.flatMap_cons]

/-- A block calls what the lines in it call, if its ends call nothing. -/
theorem calledNames_block {opening closing : String} (hopening : calledBy ctx opening = none)
    (hclosing : calledBy ctx closing = none) (code : List Code) :
    calledNames ctx [.block opening code closing] = calledNames ctx code := by
  have hlines : lineTextsOf [.block opening code closing] =
      opening :: (lineTextsOf code ++ [closing]) := by
    simp [lineTextsOf, lineTexts]
  rw [calledNames, hlines, List.filterMap_cons_none hopening, List.filterMap_append,
    List.filterMap_cons_none hclosing, List.filterMap_nil, List.append_nil]
  rfl

/-- Silent code calls nothing. -/
theorem Silent.calledNames_eq {code : List Code} (h : Silent (calledBy ctx) code) :
    calledNames ctx code = [] := List.filterMap_eq_nil_iff.mpr h

/-- What calls nothing may be left out in front. -/
theorem Silent.calledNames_append {code : List Code} (h : Silent (calledBy ctx) code)
    (code' : List Code) : calledNames ctx (code ++ code') = calledNames ctx code' := by
  rw [Code.calledNames_append, h.calledNames_eq, List.nil_append]

end Code

/-- A movement of the pen is a method call, which is not of this kind. -/
theorem PathElement.calledBy_statement (element : PathElement) :
    calledBy ctx (element.statement ctx) = none := by
  refine calledBy_of_context ?_
  cases element <;> simp [statement]

/-- Of the lines of statements, only those call a function that paint a symbol. -/
theorem Stmt.filterMap_calledBy {stmt : Stmt} (h : stmt.CallsName) :
    (stmt.lines ctx).filterMap (calledBy ctx) = stmt.callee?.toList := by
  -- only placing a symbol is a call of this kind
  have hnone : ∀ {line : String}, calledBy ctx line = none →
      [line].filterMap (calledBy ctx) = [] := fun h => List.filterMap_cons_none h
  cases stmt with
  | comment text => exact hnone (calledBy_of_begins rfl _)
  | callSymbol function =>
    have hname : Identifier.IsName function := h
    obtain ⟨c, cs, hfirst, -⟩ := hname.first
    have hempty : function ≠ "" := by
      rintro rfl
      cases hfirst
    have hcall : calledBy ctx (function ++ "(" ++ ctx ++ ");") = some function :=
      calledBy_eq_some_iff.mpr ⟨hempty, hname.word, by simp only [String.append_assoc]⟩
    exact List.filterMap_cons_some hcall
  | outline node path =>
    refine List.filterMap_eq_nil_iff.mpr (List.forall_mem_cons.mpr ⟨?_, ?_⟩)
    · exact calledBy_of_context (by simp)
    · exact List.forall_mem_map.mpr fun element _ => element.calledBy_statement
  | makeGradient p q =>
    refine hnone ?_
    simp only [String.append_assoc]
    exact calledBy_of_begins rfl _
  | addStop offset css =>
    refine hnone ?_
    simp only [String.append_assoc]
    exact calledBy_of_begins rfl _
  | makePattern canvas =>
    refine hnone ?_
    simp only [String.append_assoc]
    exact calledBy_of_begins rfl _
  | setAlpha | resetAlpha | save | restore | translate | scale | solidStyle | gradientStyle
  | patternStyle | fill | lineWidth | stroke =>
    exact hnone (calledBy_of_context (by simp))

/-- The lines of a scope call what its statements do. -/
theorem Scope.calledNames_code {scope : Scope} (h : scope.CallsNames) :
    Code.calledNames ctx (scope.code ctx) = scope.body.filterMap Stmt.callee? := by
  have hlocals : (declarations ctx scope.locals).filterMap (calledBy ctx) = [] := by
    rw [List.filterMap_eq_nil_iff, declarations_eq, List.forall_mem_map]
    rintro (_ | _ | _) -
    · unfold Local.declaration
      rw [String.append_assoc]
      exact calledBy_of_begins rfl _
    · exact calledBy_ofList (by decide : beginsUncalled "let gradient: CanvasGradient;".toList)
    · exact calledBy_ofList (by decide : beginsUncalled "let pattern: CanvasPattern;".toList)
  -- the local names are declared first, then the statements follow
  have hlines : Code.lineTextsOf (scope.code ctx) =
      declarations ctx scope.locals ++ scope.body.flatMap (Stmt.lines ctx) := by
    rw [code, Stmt.code, Code.lineTextsOf_append, Code.lineTextsOf_lines, Code.lineTextsOf_lines]
  rw [Code.calledNames, hlines, List.filterMap_append, hlocals, List.nil_append,
    List.filterMap_flatMap, List.filterMap_eq_flatMap_toList]
  exact List.flatMap_congr fun stmt hstmt => Stmt.filterMap_calledBy (h stmt hstmt)

/-- The function of a symbol calls what its scope places. -/
theorem SymbolFunction.calledNames_code {f : SymbolFunction} (h : f.scope.CallsNames) :
    Code.calledNames ctx (f.code ctx) = f.scope.body.filterMap Stmt.callee? := by
  have hcode : f.code ctx = [.block ("function " ++ functionLine (Identifier.escape f.name) ctx)
      (f.scope.code ctx) "\x7d"] ++ [.blank] := rfl
  rw [hcode, Code.calledNames_append,
    Code.calledNames_block (calledBy_of_begins rfl _) (calledBy_ofList rfl),
    Scope.calledNames_code h, Code.silent_blank.calledNames_eq, List.append_nil]

/-- A hidden canvas has a name. -/
theorem Tile.all_isWordChar_canvas (canvas : Nat) :
    (s!"canvas{canvas}").toList.all isWordChar = true := by
  change ("canvas" ++ toString canvas).toList.all isWordChar = true
  rw [String.toList_append, List.all_append, Bool.and_eq_true]
  refine ⟨by decide, List.all_eq_true.mpr fun c hc => ?_⟩
  exact Identifier.isWordChar_of_isAlphanum
    (Identifier.isAlphanum_of_isDigit (Identifier.isDigit_of_mem_repr hc))

/-- The calls of a block for a hidden canvas are those of its scope. -/
theorem Tile.calledNames_code {tile : Tile} (h : tile.scope.CallsNames) :
    Code.calledNames ctx (tile.code ctx) = tile.scope.body.filterMap Stmt.callee? := by
  have hcanvas := all_isWordChar_canvas tile.canvas
  have hwidth : calledBy ctx (s!"canvas{tile.canvas}" ++ ".width = " ++
      Decimal.coordinate tile.width ++ ";") = none := by
    rw [String.append_assoc, String.append_assoc]
    exact calledBy_of_word hcanvas (Identifier.endsWord_append rfl _) (by simp)
  have hheight : calledBy ctx (s!"canvas{tile.canvas}" ++ ".height = " ++
      Decimal.coordinate tile.height ++ ";") = none := by
    rw [String.append_assoc, String.append_assoc]
    exact calledBy_of_word hcanvas (Identifier.endsWord_append rfl _) (by simp)
  have hcanvasLine : calledBy ctx ("const " ++ s!"canvas{tile.canvas}" ++ " = " ++
      canvasExpression (tileElement tile.canvas) ++ ";") = none := by
    simp only [String.append_assoc]
    exact calledBy_of_begins rfl _
  have hcontextLine : calledBy ctx ("const " ++ ctx ++ " = " ++ s!"canvas{tile.canvas}" ++
      ".getContext(\"2d\")!;") = none := by
    simp only [String.append_assoc]
    exact calledBy_of_begins rfl _
  have hremark : calledBy ctx ("// " ++ tile.name) = none := calledBy_of_begins rfl _
  have hlines := (Code.silent_line hcanvasLine).append <| (Code.silent_line hwidth).append <|
    (Code.silent_line hheight).append (Code.silent_line hcontextLine)
  -- the canvas is set up by four lines, and only then the art is painted
  calc Code.calledNames ctx (tile.code ctx)
    _ = Code.calledNames ctx [.block "\x7b" (_ ++ tile.scope.code ctx) "\x7d"] :=
      (Code.silent_line hremark).calledNames_append _
    _ = Code.calledNames ctx (_ ++ tile.scope.code ctx) :=
      Code.calledNames_block (calledBy_ofList rfl) (calledBy_ofList rfl) _
    _ = Code.calledNames ctx (tile.scope.code ctx) := hlines.calledNames_append _
    _ = tile.scope.body.filterMap Stmt.callee? := Scope.calledNames_code h

/-- The art of an object calls what its statements call, and an image nothing. -/
theorem DrawObject.calledNames_paintCode {object : DrawObject} (name : String)
    (h : ∀ scope, object.scope? = some scope → scope.CallsNames) :
    Code.calledNames ctx (paintCode ctx name object.painting) =
      object.scope?.toList.flatMap fun scope => scope.body.filterMap Stmt.callee? := by
  unfold scope?
  cases hobject : object.painting with
  | art scope =>
    rw [scope?, hobject] at h
    exact (Scope.calledNames_code (h scope rfl)).trans (List.append_nil _).symm
  | image file corner width height =>
    exact (Code.silent_line (calledBy_of_context (by simp))).calledNames_eq

/-- The line that gives an object its image calls nothing. -/
theorem calledBy_sourceLine {name : String} (hname : name.toList.all isWordChar = true)
    (file : String) : calledBy ctx (name ++ ".image.src = " ++ Text.quote file ++ ";") = none := by
  simp only [String.append_assoc]
  exact calledBy_of_word hname (Identifier.endsWord_append rfl _) (by simp)

/-- The calls of an object are those of its art. -/
theorem DrawObject.calledNames_code {object : DrawObject}
    (hname : Identifier.IsName object.function)
    (h : ∀ scope, object.scope? = some scope → scope.CallsNames) :
    Code.calledNames ctx (object.code ctx) =
      object.scope?.toList.flatMap fun scope => scope.body.filterMap Stmt.callee? := by
  have hpaint : calledBy ctx (functionLine "paint" ctx) = none := calledBy_of_ending _ (by decide)
  have hopening : calledBy ctx ("export const " ++ Identifier.escape object.function ++
      " = \x7b") = none := by
    rw [String.append_assoc]
    exact calledBy_of_begins rfl _
  have hbounds : calledBy ctx ("bounds: " ++ object.bounds.literal ++ ",") = none := by
    rw [String.append_assoc]
    exact calledBy_of_begins rfl _
  have himage : calledBy ctx "image: new Image()," = none := calledBy_ofList rfl
  -- with an image or without, only the painting can call something
  have hblock : ∀ {image behind : List Code}, Code.Silent (calledBy ctx) image →
      Code.Silent (calledBy ctx) behind → Code.calledNames ctx
        ([.block ("export const " ++ Identifier.escape object.function ++ " = \x7b")
          (.line ("bounds: " ++ object.bounds.literal ++ ",") :: image ++
            [.block (functionLine "paint" ctx)
              (paintCode ctx (Identifier.escape object.function) object.painting) "\x7d,"])
          "\x7d;"] ++ behind) =
        object.scope?.toList.flatMap fun scope => scope.body.filterMap Stmt.callee? := by
    intro image behind himage hbehind
    rw [Code.calledNames_append, hbehind.calledNames_eq, List.append_nil,
      Code.calledNames_block hopening (calledBy_ofList rfl)]
    refine (((Code.silent_line hbounds).append himage).calledNames_append _).trans ?_
    rw [Code.calledNames_block hpaint (calledBy_ofList rfl), calledNames_paintCode _ h]
  unfold code
  dsimp only
  cases object.file? with
  | some file =>
    exact hblock (Code.silent_line himage)
      ((Code.silent_line (calledBy_sourceLine hname.all_escape file)).append Code.silent_blank)
  | none => exact hblock Code.silent_nil Code.silent_blank

/-- The object of a path calls nothing with the context. -/
theorem PathObject.silent_calls (path : PathObject) :
    Code.Silent (calledBy ctx) path.code := by
  have hopening : calledBy ctx path.opening = none := by
    unfold opening
    rw [String.append_assoc]
    exact calledBy_of_begins rfl _
  have hsegment : ∀ s, calledBy ctx (segmentLine s) = none := by
    intro s
    unfold segmentLine
    rw [String.append_assoc]
    exact calledBy_of_begins rfl _
  have hlengths : calledBy ctx ("[" ++ coordinates path.lengths ++ "],") = none := by
    rw [String.append_assoc]
    exact calledBy_of_begins rfl _
  have hclock : calledBy ctx (path.clock.literal ++ ",") = none := by
    unfold Clock.literal
    simp only [String.append_assoc]
    exact calledBy_of_begins rfl _
  have hends : calledBy ctx "[" = none ∧ calledBy ctx "]," = none :=
    ⟨calledBy_ofList rfl, calledBy_ofList rfl⟩
  -- lists of numbers and the clock stand within the object
  have hsegments := (Code.silent_map_line (l := path.segments) fun s _ => hsegment s).block
    hends.1 hends.2
  exact ((hsegments.append <| (Code.silent_line hlengths).append (Code.silent_line hclock)).block
    hopening (calledBy_ofList rfl)).append Code.silent_blank

/-- A clock is written with a word in front. -/
theorem ClockRef.calledBy_append {r : ClockRef} (h : Identifier.IsName r.function) (rest : String) :
    calledBy ctx (r.text ++ ("." ++ rest)) = none := by
  cases r with
  | ofPath function =>
    have hname : Identifier.IsName function := h
    rw [text, String.append_assoc]
    exact calledBy_of_word hname.all_escape (Identifier.endsWord_append rfl _) (by simp)
  | ofDraw function kind =>
    have hname : Identifier.IsName function := h
    exact calledBy_of_word (hname.append_ending kind).word (Identifier.endsWord_append rfl _)
      (by simp)

/-- A frame calls the objects that it paints, but no function by itself. -/
theorem FrameStmt.calledBy_lines {stmt : FrameStmt} (h : stmt.NamesFunction) :
    ∀ line ∈ stmt.lines ctx, calledBy ctx line = none := by
  have hsingle : ∀ {line : String}, calledBy ctx line = none →
      ∀ line' ∈ [line], calledBy ctx line' = none := fun h => List.forall_mem_singleton.mpr h
  cases stmt with
  | paint function =>
    refine hsingle ?_
    simp only [String.append_assoc]
    exact calledBy_of_word (h function rfl).all_escape (Identifier.endsWord_append rfl _) (by simp)
  | applyClock function kind =>
    cases kind with
    | path => exact nofun
    | rotate | scale | alpha => exact hsingle (calledBy_of_context (by simp))
  | save | restore | move | moveAlong | turnAlong | markStyle | mark =>
    exact hsingle (calledBy_of_context (by simp))

end Parts

namespace Script

variable {o : EmitOptions} {s : Script} {ctx : String}

/-- No line of the runtime code calls anything with the context alone. -/
theorem silent_calls_runtimeCode : Code.Silent (calledBy ctx) (s.runtimeCode o) := by
  have hkeyword : ∀ word ∈ declarationWords, word.toList.all isWordChar = true := by decide
  have hdeclaration : ∀ d ∈ Runtime.declarations, ∀ line ∈ d.lines, calledBy ctx line = none := by
    intro d hd
    refine List.forall_mem_cons.mpr ⟨?_, fun line hline =>
      calledBy_of_endsWord (Runtime.endsWord_body hd line hline)⟩
    -- each of the twelve declarations starts with a keyword
    have hword : d.keyword ∈ declarationWords := by
      simp only [Runtime.declarations, List.mem_cons, List.not_mem_nil, or_false] at hd
      rcases hd with rfl | rfl | rfl | rfl | rfl | rfl | rfl | rfl | rfl | rfl | rfl | rfl <;>
        decide
    simp only [String.append_assoc]
    exact calledBy_of_word (hkeyword _ hword) (Identifier.endsWord_append rfl _) (by simp)
  unfold runtimeCode
  split
  · refine (Code.silent_map_line (f := id) fun line hline => ?_).append Code.silent_blank
    obtain hblank | ⟨part, hpart, hline⟩ := Text.mem_intercalate hline
    · obtain rfl := List.mem_singleton.mp hblank
      exact calledBy_of_endsWord Identifier.endsWord_empty
    · obtain ⟨d, hd, rfl⟩ := List.mem_map.mp hpart
      exact hdeclaration d hd line hline
  · exact Code.silent_nil

/-- A frame paints draw functions, and through their objects only. -/
theorem silent_calls_frameCode (h : ∀ stmt ∈ s.frameBody o, stmt.NamesFunction) :
    Code.Silent (calledBy o.contextName) (s.frameCode o) := by
  have hlines : Code.Silent (calledBy o.contextName)
      (((s.frameBody o).flatMap (FrameStmt.lines o.contextName)).map .line) :=
    Code.silent_map_line (List.forall_mem_flatMap.mpr fun stmt hstmt =>
      FrameStmt.calledBy_lines (h stmt hstmt))
  have hclear : calledBy o.contextName (o.contextName ++ ".clearRect(0, 0, " ++
      coordinates [s.bounds.width, s.bounds.height] ++ ");") = none :=
    calledBy_of_context (by simp)
  exact (((Code.silent_line hclear).append hlines).block (calledBy_of_begins rfl _)
    (calledBy_ofList rfl)).append Code.silent_blank

/-- The function that a line calls, unless every script has it. -/
def otherCalledBy (ctx line : String) : Option String :=
  (calledBy ctx line).filter fun name => decide (name ∉ ownNames)

/-- What is no call at all is no call of another function. -/
theorem otherCalledBy_of_none {line : String} (h : calledBy ctx line = none) :
    otherCalledBy ctx line = none := by
  rw [otherCalledBy, h]
  rfl

/-- The functions of the script itself do not count as others. -/
theorem otherCalledBy_own {word : String}
    (hword : word ∈ ["drawPatterns", "updateClocks", "drawFrame"]) (rest : String) :
    otherCalledBy ctx (word ++ ("(" ++ rest)) = none := by
  have hwords : ∀ word ∈ ["drawPatterns", "updateClocks", "drawFrame"],
      word.toList.all isWordChar = true ∧ word ∈ ownNames := by
    simp [ownNames, Runtime.names_eq, isWordChar]
  obtain ⟨hchars, hmem⟩ := hwords word hword
  rw [otherCalledBy]
  cases hcall : calledBy ctx (word ++ ("(" ++ rest)) with
  | none => rfl
  | some name =>
    rw [eq_of_calledBy hchars hcall]
    exact Option.filter_some_neg (by simp [hmem])

/-- Painting a frame does not count either. -/
theorem otherCalledBy_drawFrame : otherCalledBy ctx ("drawFrame(" ++ ctx ++ ");") = none := by
  rw [String.append_assoc]
  exact otherCalledBy_own (by simp : "drawFrame" ∈ _) (ctx ++ ");")

/-- The constants of the page call nothing. -/
theorem silent_otherCalls_pageCode : Code.Silent (otherCalledBy ctx) (s.pageCode o) := by
  have hwidth : calledBy ctx ("canvas.width = " ++ Decimal.coordinate s.bounds.width ++ ";") =
      none := by
    rw [String.append_assoc]
    exact calledBy_of_begins rfl _
  have hheight : calledBy ctx ("canvas.height = " ++ Decimal.coordinate s.bounds.height ++ ";") =
      none := by
    rw [String.append_assoc]
    exact calledBy_of_begins rfl _
  have hcontext : calledBy ctx ("const " ++ o.contextName ++ " = canvas.getContext(\"2d\")!;") =
      none := by
    rw [String.append_assoc]
    exact calledBy_of_begins rfl _
  refine Code.Silent.append ((Code.silent_line (otherCalledBy_of_none hwidth)).append <|
    (Code.silent_line (otherCalledBy_of_none hheight)).append
      (Code.silent_line (otherCalledBy_of_none hcontext))) ?_
  split
  · exact Code.silent_nil
  · exact Code.silent_line (otherCalledBy_own (by simp : "drawPatterns" ∈ _) ");")

/-- Starting a script calls only the functions of the script itself. -/
theorem silent_otherCalls_startCode (h : s.NamesFunctions o) :
    Code.Silent (otherCalledBy o.contextName) (s.startCode o) := by
  have hwirings := h.wirings
  have hstarts := h.starts
  unfold wirings at hwirings
  unfold starts at hstarts
  unfold startCode
  cases hstartup : s.startup with
  | none => exact Code.silent_line otherCalledBy_drawFrame
  | some startup =>
    rw [hstartup] at hwirings hstarts
    have hupdate : otherCalledBy o.contextName "updateClocks();" = none :=
      otherCalledBy_own (by simp : "updateClocks" ∈ _) ");"
    have hopening : calledBy o.contextName "setInterval(() => \x7b" = none :=
      calledBy_of_ending "setInterval(() =>" (by decide : EndsOtherwise " \x7b".toList _)
    have hclosing : calledBy o.contextName ("\x7d, 1000 / " ++ Decimal.coordinate o.fps ++ ");") =
        none := by
      rw [String.append_assoc]
      exact calledBy_of_begins rfl _
    -- the timer calls two functions of the script itself
    have htimer := ((Code.silent_line hupdate).append
      (Code.silent_line otherCalledBy_drawFrame)).block (otherCalledBy_of_none hopening)
      (otherCalledBy_of_none hclosing)
    refine ((Code.silent_map_line fun w hw => otherCalledBy_of_none ?_).append
      (Code.silent_map_line fun clock hclock => otherCalledBy_of_none ?_)).append htimer
    · unfold Wiring.line
      simp only [String.append_assoc]
      exact ClockRef.calledBy_append (hwirings w hw).1 _
    · exact ClockRef.calledBy_append (hstarts clock hclock) "start();"

/-- What sets up the page and starts painting calls functions that every script has. -/
theorem calledNames_renderCode (h : s.NamesFunctions o) :
    Code.calledNames o.contextName (s.renderCode o) ⊆ ownNames := by
  have hopening : calledBy o.contextName ("export function render(canvas: HTMLCanvasElement = " ++
      canvasExpression o.canvasId ++ "): void \x7b") = none := by
    rw [String.append_assoc]
    exact calledBy_of_begins rfl _
  -- read with these functions left out, all lines are silent
  have hsilent : Code.Silent (otherCalledBy o.contextName) (s.renderCode o) :=
    (silent_otherCalls_pageCode.append (silent_otherCalls_startCode h)).block
      (otherCalledBy_of_none hopening) (otherCalledBy_of_none (calledBy_ofList rfl))
  intro name hname
  obtain ⟨line, hline, hcall⟩ := List.mem_filterMap.mp hname
  have hother := hsilent line hline
  rw [otherCalledBy, hcall] at hother
  by_contra hmem
  rw [Option.filter_some_pos (by simpa using hmem)] at hother
  cases hother

/-- The calls of tiles are those of their art. -/
theorem calledNames_tilesCode (h : ∀ tile ∈ s.tiles, tile.scope.CallsNames) :
    Code.calledNames o.contextName (tilesCode o.contextName s.tiles) =
      s.tiles.flatMap fun tile => tile.scope.body.filterMap Stmt.callee? := by
  have hall := Code.calledNames_flatMap (f := Tile.code o.contextName) fun tile htile =>
    Tile.calledNames_code (h tile htile)
  unfold tilesCode
  split
  next hnone =>
    rw [List.isEmpty_iff.mp hnone]
    rfl
  next =>
    have hopening : calledBy o.contextName "export function drawPatterns(): void \x7b" = none :=
      calledBy_ofList rfl
    refine (Code.calledNames_append [_] [_]).trans ?_
    rw [Code.silent_blank.calledNames_eq, List.append_nil,
      Code.calledNames_block hopening (calledBy_ofList rfl), hall]

/-- To make clocks nothing is called. -/
theorem silent_calls_clocksCode : Code.Silent (calledBy o.contextName) (clocksCode s.clocks) := by
  unfold clocksCode
  split
  · exact Code.silent_nil
  · refine (Code.silent_map_line fun clock _ => ?_).append Code.silent_blank
    unfold ClockObject.declaration
    simp only [String.append_assoc]
    exact calledBy_of_begins rfl _

/-- The summary calls nothing, as all its lines begin like remarks. -/
theorem silent_calls_summaryCode : Code.Silent (calledBy o.contextName) (s.summaryCode o) := by
  unfold summaryCode
  split
  · exact Code.silent_blank.append (Code.silent_map_line fun line _ => calledBy_of_begins rfl _)
  · exact Code.silent_nil

/-- The functions that the lines of a script call are those that the statements of its scopes call,
and some that every script has. -/
theorem calledNames_code (h : s.NamesFunctions o) :
    Code.calledNames o.contextName (s.code o) =
      s.scopes.flatMap (fun scope => scope.body.filterMap Stmt.callee?) ++
        Code.calledNames o.contextName (s.renderCode o) := by
  have hscopes := h.scopes
  simp only [scopes, List.forall_mem_append, List.forall_mem_map] at hscopes
  obtain ⟨⟨hsymbols, htiles⟩, hobjects⟩ := hscopes
  have hhead : Code.Silent (calledBy o.contextName)
      [.line "// Generated by canvas-export. Do not edit.", .blank] :=
    (Code.silent_line (calledBy_ofList rfl)).append Code.silent_blank
  have hbounds : Code.Silent (calledBy o.contextName)
      [.line ("export const bounds = " ++ s.bounds.literal ++ ";"), .blank] := by
    rw [String.append_assoc]
    exact (Code.silent_line (calledBy_of_begins rfl _)).append Code.silent_blank
  have hsymbols := Code.calledNames_flatMap (f := SymbolFunction.code o.contextName) fun f hf =>
    SymbolFunction.calledNames_code (hsymbols f hf)
  have hobjects := Code.calledNames_flatMap (f := DrawObject.code o.contextName)
    fun object hobject =>
      DrawObject.calledNames_code (h.parts.objects object hobject) fun scope hscope =>
        hobjects scope (List.mem_filterMap.mpr ⟨object, hobject, hscope⟩)
  have hpaths : Code.Silent (calledBy o.contextName) (s.paths.flatMap PathObject.code) :=
    Code.Silent.flatMap fun path _ => path.silent_calls
  -- the parts in the order of the script
  unfold code
  simp only [Code.calledNames_append, hhead.calledNames_eq, silent_calls_runtimeCode.calledNames_eq,
    hbounds.calledNames_eq, hsymbols, calledNames_tilesCode htiles, hobjects, hpaths.calledNames_eq,
    silent_calls_clocksCode.calledNames_eq, (silent_calls_frameCode h.frame).calledNames_eq,
    silent_calls_summaryCode.calledNames_eq, List.nil_append, List.append_nil, scopes,
    List.flatMap_append, List.flatMap_map, List.append_assoc, List.filterMap_eq_flatMap_toList,
    List.flatMap_assoc]

/-- Besides the functions that every script has, the lines of a script call those that its scopes
call to paint a symbol. -/
theorem mem_calledNames_iff (h : s.NamesFunctions o) {name : String} (hname : name ∉ ownNames) :
    name ∈ Code.calledNames o.contextName (s.code o) ↔ s.CallsSymbol name := by
  have hrender : name ∉ Code.calledNames o.contextName (s.renderCode o) := fun hmem =>
    hname (calledNames_renderCode h hmem)
  simp only [calledNames_code h, List.mem_append, hrender, or_false, List.mem_flatMap, CallsSymbol,
    Stmt.callSymbol_mem_iff]

end Script

end ArtCanvas
