import ArtCanvas.Proofs.Script.ClockLines

/-!
# The lines of a script that have to do with clocks

All lines of a script are read, those inside of blocks included. What is found is one line for each
path and each clock, one for each wiring, and one for each clock that is started, in this order.

* `Code.clockTexts`: the lines of code that make, wire or start a clock.
* `Script.clockTexts_code`: the lines of a script.
-/

namespace ArtCanvas

open Identifier (isWordChar EndsWord)
open ClockLine

namespace Code

/-- The lines of code that have to do with clocks. -/
def clockTexts (code : List Code) : List String :=
  (lineTextsOf code).filter fun line => (read? line).isSome

variable {code code' : List Code}

/-- The lines about clocks in two parts follow each other. -/
theorem clockTexts_append (code code' : List Code) :
    clockTexts (code ++ code') = clockTexts code ++ clockTexts code' := by
  rw [clockTexts, lineTextsOf_append, List.filter_append]
  rfl

/-- Silent code has no line about clocks. -/
theorem Silent.clockTexts_eq (h : Silent read? code) : clockTexts code = [] :=
  List.filter_eq_nil_iff.mpr fun line hline => by simp [h line hline]

/-- The lines about clocks in several parts follow each other. -/
theorem clockTexts_flatMap {α : Type} {f : α → List Code} {texts : α → List String} {l : List α}
    (h : ∀ a ∈ l, clockTexts (f a) = texts a) : clockTexts (l.flatMap f) = l.flatMap texts := by
  induction l with
  | nil => rfl
  | cons a l ih =>
    obtain ⟨ha, hl⟩ := List.forall_mem_cons.mp h
    rw [List.flatMap_cons, clockTexts_append, ha, ih hl, List.flatMap_cons]

/-- Where each line is about clocks, all of them are found. -/
theorem clockTexts_map_line {α : Type} {f : α → String} {l : List α}
    (h : ∀ a ∈ l, (read? (f a)).isSome = true) :
    clockTexts (l.map fun a => .line (f a)) = l.map f := by
  rw [clockTexts, lineTextsOf_map_line]
  exact List.filter_eq_self.mpr (List.forall_mem_map.mpr h)

/-- A line about clocks is found. -/
theorem clockTexts_line {text : String} (h : (read? text).isSome = true) :
    clockTexts [.line text] = [text] :=
  List.filter_eq_self.mpr (List.forall_mem_singleton.mpr h)

/-- The lines of a block are its ends and what is between them. -/
theorem clockTexts_block (opening closing : String) (code : List Code) :
    clockTexts [.block opening code closing] =
      clockTexts [.line opening] ++ clockTexts code ++ clockTexts [.line closing] := by
  have hlines : lineTextsOf [.block opening code closing] =
      [opening] ++ lineTextsOf code ++ [closing] := by
    simp [lineTextsOf, lineTexts]
  rw [clockTexts, hlines, List.filter_append, List.filter_append]
  rfl

end Code

/-! ### Statements -/

section Statements

variable {ctx : String}

/-- A function that a statement calls has a name of the right shape. -/
def Stmt.CallsName : Stmt → Prop
  | .callSymbol function => Identifier.IsName function
  | _ => True

/-- A movement of the pen says nothing about clocks. -/
theorem PathElement.read?_statement (element : PathElement) :
    read? (element.statement ctx) = none := by
  cases element with
  | move p => exact read?_of_call ctx (by decide) (all_isArgumentChar_coordinates _)
  | line p => exact read?_of_call ctx (by decide) (all_isArgumentChar_coordinates _)
  | quad c p => exact read?_of_call ctx (by decide) (all_isArgumentChar_coordinates _)
  | cubic c₁ c₂ p => exact read?_of_call ctx (by decide) (all_isArgumentChar_coordinates _)
  | close => exact read?_of_endsInOtherCall ctx rfl

/-- A line that ends in a coordinate and a semicolon has nothing to do with clocks. -/
theorem read?_coordinate (front : String) (x : Float) :
    read? (front ++ Decimal.coordinate x ++ ";") = none := by
  rw [← String.ofList_toList (s := Decimal.coordinate x)]
  exact read?_of_semicolon front (endsOtherwise_coordinate rfl rfl x)

/-- Neither has a line that ends in a quoted text and a semicolon. -/
theorem read?_quote (front text : String) : read? (front ++ Text.quote text ++ ";") = none := by
  obtain ⟨before, hquote⟩ := Text.exists_quote_eq text
  have hmark : EndsOtherwise ['\x22'] [')'] := by decide
  rw [hquote, ← String.append_assoc]
  exact read?_of_semicolon _ hmark

/-- The lines of a statement have nothing to do with clocks. -/
theorem Stmt.read?_lines {stmt : Stmt} (h : stmt.CallsName) :
    ∀ line ∈ stmt.lines ctx, read? line = none := by
  -- most statements are one line
  have hsingle : ∀ {line : String}, read? line = none → ∀ line' ∈ [line], read? line' = none :=
    fun h => List.forall_mem_singleton.mpr h
  cases stmt with
  | comment text => exact hsingle (read?_of_endsWord (Identifier.endsWord_append rfl _))
  | setAlpha factor => exact hsingle (read?_coordinate _ _)
  | resetAlpha => exact hsingle (read?_of_ending ctx (by decide))
  | save => exact hsingle (read?_of_endsInOtherCall ctx rfl)
  | restore => exact hsingle (read?_of_endsInOtherCall ctx rfl)
  | translate p =>
    exact hsingle (read?_of_call ctx (by decide) (all_isArgumentChar_coordinates _))
  | scale x y =>
    exact hsingle (read?_of_call ctx (by decide) (all_isArgumentChar_coordinates _))
  | callSymbol function =>
    have hword : function.toList.all isWordChar = true := Identifier.IsName.word h
    have hpoint : '.' ∉ function.toList := Text.not_mem_of_all_isWordChar rfl hword
    refine hsingle ?_
    simp only [String.append_assoc]
    exact read?_of_called (all_isPlaceChar_of_word hword) (by rw [String.toList_append]; rfl)
      (fun hsuffix => hpoint (hsuffix.subset List.mem_cons_self))
      (fun hsuffix => hpoint (hsuffix.subset List.mem_cons_self))
  | outline node path =>
    exact List.forall_mem_cons.mpr ⟨read?_of_endsInOtherCall ctx rfl,
      List.forall_mem_map.mpr fun element _ => element.read?_statement⟩
  | solidStyle target css => exact hsingle (read?_quote _ _)
  | makeGradient p q =>
    refine hsingle ?_
    simp only [String.append_assoc]
    exact read?_of_beginsOtherwise rfl _
  | addStop offset css =>
    refine hsingle ?_
    simp only [String.append_assoc]
    exact read?_of_beginsOtherwise rfl _
  | gradientStyle target => exact hsingle (read?_of_ending _ (by decide))
  | makePattern canvas =>
    refine hsingle ?_
    simp only [String.append_assoc]
    exact read?_of_beginsOtherwise rfl _
  | patternStyle target => exact hsingle (read?_of_ending _ (by decide))
  | fill => exact hsingle (read?_of_endsInOtherCall ctx rfl)
  | lineWidth width => exact hsingle (read?_coordinate _ _)
  | stroke => exact hsingle (read?_of_endsInOtherCall ctx rfl)

/-- The name of a function of a statement in a frame. -/
def FrameStmt.function? : FrameStmt → Option String
  | .moveAlong function => some function
  | .turnAlong function _ => some function
  | .applyClock function _ => some function
  | .paint function => some function
  | _ => none

/-- The functions that a statement of a frame speaks of have names of the right shape. -/
def FrameStmt.NamesFunction (stmt : FrameStmt) : Prop :=
  ∀ function, stmt.function? = some function → Identifier.IsName function

/-- The value of a clock is written with names and a point. -/
theorem all_isPlaceChar_value {function : String} (h : Identifier.IsName function)
    (kind : ClockKind) :
    (drawClockName function kind ++ ".value").toList.all isPlaceChar = true := by
  rw [String.toList_append, List.all_append,
    all_isPlaceChar_of_word (h.append_ending kind).word]
  decide

/-- To read the value of a clock is neither to make nor to wire nor to start one. -/
theorem FrameStmt.read?_clockLines {function : String} (h : Identifier.IsName function)
    (kind : ClockKind) :
    ∀ line ∈ FrameStmt.clockLines ctx function kind, read? line = none := by
  have hargument := all_isArgumentChar_of_place (all_isPlaceChar_value h kind)
  unfold FrameStmt.clockLines
  cases kind with
  | rotate => exact List.forall_mem_singleton.mpr (read?_of_call ctx (by decide) hargument)
  | scale =>
    have hline : ∀ value : String, ctx ++ ".scale(" ++ value ++ ", " ++ value ++ ");" =
        ctx ++ ".scale(" ++ (value ++ ", " ++ value) ++ ");" := fun value => by
      simp only [String.append_assoc]
    dsimp only
    rw [hline]
    refine List.forall_mem_singleton.mpr (read?_of_call ctx (by decide) ?_)
    rw [String.toList_append, String.toList_append, List.all_append, List.all_append, hargument]
    decide
  | alpha =>
    refine List.forall_mem_singleton.mpr ?_
    rw [← String.append_assoc]
    exact read?_of_semicolon _ (by decide)
  | path => exact nofun

/-- Neither is it to paint an object. -/
theorem FrameStmt.read?_paint {name : String} (hname : name.toList.all isWordChar = true) :
    read? (name ++ ".paint(" ++ ctx ++ ");") = none := by
  have hplace : (name ++ ".paint").toList.all isPlaceChar = true := by
    rw [String.toList_append, List.all_append, all_isPlaceChar_of_word hname]
    decide
  have hother : ∀ method ∈ [".start", ".on"], ¬ method.toList <:+ (name ++ ".paint").toList := by
    intro method hmethod hsuffix
    have hends : ∀ method ∈ [".start", ".on"], EndsOtherwise ".paint".toList method.toList := by
      decide
    obtain ⟨before, heq⟩ := hsuffix
    rw [String.toList_append] at heq
    exact (hends method hmethod).append_ne _ _ heq.symm
  have hline : name ++ ".paint(" ++ ctx ++ ");" = (name ++ ".paint") ++ ("(" ++ (ctx ++ ");")) := by
    have hparts : ".paint(" = ".paint" ++ "(" := rfl
    simp only [hparts, String.append_assoc]
  rw [hline]
  exact read?_of_called hplace (by rw [String.toList_append]; rfl) (hother ".start" (by simp))
    (hother ".on" (by simp))

/-- Neither have the lines of a statement in a frame, although they may read a clock. -/
theorem FrameStmt.read?_lines {stmt : FrameStmt} (h : stmt.NamesFunction) :
    ∀ line ∈ stmt.lines ctx, read? line = none := by
  have hsingle : ∀ {line : String}, read? line = none → ∀ line' ∈ [line], read? line' = none :=
    fun h => List.forall_mem_singleton.mpr h
  cases stmt with
  | save => exact hsingle (read?_of_endsInOtherCall ctx rfl)
  | restore => exact hsingle (read?_of_endsInOtherCall ctx rfl)
  | move offset =>
    exact hsingle (read?_of_call ctx (by decide) (all_isArgumentChar_coordinates _))
  | moveAlong function =>
    have hline : (ctx ++ ".translate(" ++ Identifier.escape function ++ ".x(), " ++
        Identifier.escape function ++ ".y());").toList =
        (ctx ++ ".translate(" ++ Identifier.escape function ++ ".x()").toList ++ ',' :: ' ' ::
          (Identifier.escape function).toList ++ ".y".toList ++ '(' :: "));".toList := by
      simp
    refine hsingle (read?_of_member hline ?_ rfl (by decide) (by decide) (by decide) (by decide))
    rw [List.all_append, all_isPlaceChar_of_word (h function rfl).all_escape]
    decide
  | turnAlong function degrees =>
    -- an angle may be added, but no call
    have hline : ∀ more : String, (ctx ++ ".rotate(" ++ Identifier.escape function ++ ".angle()" ++
        more ++ ");").toList = (ctx ++ ".rotat").toList ++ 'e' :: '(' ::
          (Identifier.escape function).toList ++ ".angle".toList ++
          '(' :: (')' :: more.toList ++ ");".toList) := by
      simp
    refine hsingle (read?_of_member (hline _) ?_ rfl (by decide) ⟨by simp, ?_⟩ (by decide)
      (by decide))
    · rw [List.all_append, all_isPlaceChar_of_word (h function rfl).all_escape]
      decide
    · split
      · decide
      · simp [Decimal.not_mem_coordinate (c := '(') rfl]
  | applyClock function kind => exact FrameStmt.read?_clockLines (h function rfl) kind
  | paint function => exact hsingle (FrameStmt.read?_paint (h function rfl).all_escape)
  | markStyle => exact hsingle (read?_of_ending ctx (by decide))
  | mark => exact hsingle (read?_of_endsInOtherCall ctx rfl)

/-! ### Parts of a script -/

/-- All functions that the statements of a scope call have names of the right shape. -/
def Scope.CallsNames (scope : Scope) : Prop := ∀ stmt ∈ scope.body, stmt.CallsName

/-- Nothing that a scope paints is about clocks. -/
theorem Scope.silent_code {scope : Scope} (h : scope.CallsNames) :
    Code.Silent read? (scope.code ctx) := by
  have hlocals : ∀ line ∈ declarations ctx scope.locals, read? line = none := by
    rw [declarations_eq, List.forall_mem_map]
    -- of the local names, only the first one is declared with the context
    rintro (_ | _ | _) -
    · unfold Local.declaration
      rw [String.append_assoc]
      exact read?_of_beginsOtherwise rfl _
    · change read? "let gradient: CanvasGradient;" = none
      rfl
    · change read? "let pattern: CanvasPattern;" = none
      rfl
  exact (Code.silent_map_line hlocals).append (Code.silent_map_line
    (List.forall_mem_flatMap.mpr fun stmt hstmt => Stmt.read?_lines (h stmt hstmt)))

/-- The first line of a function that takes a context opens a block. -/
theorem read?_functionLine (front name : String) :
    read? (front ++ functionLine name ctx) = none := by
  unfold functionLine
  rw [← String.append_assoc]
  exact read?_of_ending _ (by decide)

/-- Nor is the function of a symbol. -/
theorem SymbolFunction.silent_code {f : SymbolFunction} (h : f.scope.CallsNames) :
    Code.Silent read? (f.code ctx) :=
  ((Scope.silent_code h).block (read?_functionLine _ _) rfl).append Code.silent_blank

/-- Nor is the painting of a hidden canvas. -/
theorem Tile.silent_code {tile : Tile} (h : tile.scope.CallsNames) :
    Code.Silent read? (tile.code ctx) := by
  have hremark : read? ("// " ++ tile.name) = none := read?_of_beginsOtherwise rfl _
  have hcanvas : read? ("const " ++ s!"canvas{tile.canvas}" ++ " = " ++
      canvasExpression (tileElement tile.canvas) ++ ";") = none := by
    simp only [String.append_assoc]
    exact read?_of_beginsOtherwise rfl _
  have hcontext : read? ("const " ++ ctx ++ " = " ++ s!"canvas{tile.canvas}" ++
      ".getContext(\"2d\")!;") = none := by
    simp only [String.append_assoc]
    exact read?_of_beginsOtherwise rfl _
  -- the canvas is made and sized before its context is taken
  have hlines := ((Code.silent_line hcanvas).append (Code.silent_line
    (read?_coordinate (s!"canvas{tile.canvas}" ++ ".width = ") tile.width))).append
    ((Code.silent_line (read?_coordinate (s!"canvas{tile.canvas}" ++ ".height = ")
      tile.height)).append (Code.silent_line hcontext))
  exact (Code.silent_line hremark).append ((hlines.append (Scope.silent_code h)).block rfl rfl)

/-- Nor is the function that paints all of them. -/
theorem silent_tilesCode {tiles : List Tile} (h : ∀ tile ∈ tiles, tile.scope.CallsNames) :
    Code.Silent read? (tilesCode ctx tiles) := by
  unfold tilesCode
  split
  · exact Code.silent_nil
  · exact ((Code.Silent.flatMap fun tile htile => Tile.silent_code (h tile htile)).block
      rfl rfl).append Code.silent_blank

/-- Nor is the method that paints a draw function. -/
theorem DrawObject.silent_painting {name : String} {painting : Painting}
    (hname : name.toList.all isWordChar = true)
    (h : ∀ scope, painting = .art scope → scope.CallsNames) :
    Code.Silent read? (paintCode ctx name painting) := by
  cases painting with
  | art scope => exact Scope.silent_code (h scope rfl)
  | image file corner width height =>
    -- the name is taken as the first part of the arguments
    have hline : ∀ rest : String, ctx ++ ".drawImage(" ++ name ++ ".image, " ++ rest ++ ");" =
        ctx ++ ".drawImage(" ++ (name ++ ".image, " ++ rest) ++ ");" := fun rest => by
      simp only [String.append_assoc]
    refine Code.silent_line ?_
    rw [hline]
    refine read?_of_call ctx (by decide) ?_
    rw [String.toList_append, String.toList_append, List.all_append, List.all_append,
      all_isArgumentChar_of_place (all_isPlaceChar_of_word hname),
      all_isArgumentChar_coordinates]
    decide

/-- Nor is the rest of its object. -/
theorem DrawObject.silent_code {object : DrawObject} (hname : Identifier.IsName object.function)
    (h : ∀ scope, object.scope? = some scope → scope.CallsNames) :
    Code.Silent read? (object.code ctx) := by
  have hpainting : Code.Silent read? (paintCode ctx (Identifier.escape object.function)
      object.painting) := by
    refine silent_painting hname.all_escape fun scope heq => h scope ?_
    rw [scope?, heq]
  have hpaint : read? (functionLine "paint" ctx) = none := by
    have hnone : read? ("" ++ functionLine "paint" ctx) = none := read?_functionLine "" "paint"
    rwa [String.empty_append] at hnone
  have hbounds : read? ("bounds: " ++ object.bounds.literal ++ ",") = none :=
    read?_of_ending _ (by decide)
  have hopening : read? ("export const " ++ Identifier.escape object.function ++ " = \x7b") =
      none := read?_of_ending _ (by decide)
  have hblock : ∀ {image : List Code}, Code.Silent read? image →
      Code.Silent read? [.block ("export const " ++ Identifier.escape object.function ++ " = \x7b")
        (.line ("bounds: " ++ object.bounds.literal ++ ",") :: image ++
          [.block (functionLine "paint" ctx)
            (paintCode ctx (Identifier.escape object.function) object.painting) "\x7d,"])
        "\x7d;"] := fun himage =>
    (((Code.silent_line hbounds).append himage).append (hpainting.block hpaint rfl)).block
      hopening rfl
  unfold code
  dsimp only
  -- an image is declared in the object, and gets its source behind it
  cases object.file? with
  | some file =>
    exact (hblock (Code.silent_line rfl)).append
      ((Code.silent_line (read?_quote _ file)).append Code.silent_blank)
  | none => exact (hblock Code.silent_nil).append Code.silent_blank

/-- Only the first line of a path makes something. -/
theorem PathObject.clockTexts_code {path : PathObject} (h : Identifier.IsName path.function) :
    Code.clockTexts path.code = [path.opening] := by
  have hlist : ∀ front, read? (front ++ "],") = none := fun front =>
    read?_of_ending front (by decide)
  have hclock : read? (path.clock.literal ++ ",") = none := read?_of_ending _ (by decide)
  have hsegments : Code.Silent read? (path.segments.map fun s => .line (segmentLine s)) :=
    Code.silent_map_line fun s _ => hlist _
  have hends : read? "[" = none ∧ read? "]," = none := ⟨rfl, rfl⟩
  -- the lists and the clock within the object are no lines about clocks
  have hbody := (hsegments.block hends.1 hends.2).append
    ((Code.silent_line (hlist ("[" ++ coordinates path.lengths))).append (Code.silent_line hclock))
  have hmakes := Code.clockTexts_line (congrArg Option.isSome (read?_opening h))
  have hclosing : Code.Silent read? [.line ");"] := Code.silent_line rfl
  have hinner := hbody.clockTexts_eq
  rw [List.singleton_append, List.singleton_append] at hinner
  rw [code, ← List.singleton_append, Code.clockTexts_append, Code.silent_blank.clockTexts_eq,
    Code.clockTexts_block, hmakes, hinner, hclosing.clockTexts_eq]
  rfl

/-- Clocks are declared by one line each. -/
theorem clockTexts_clocksCode {clocks : List ClockObject}
    (h : ∀ clock ∈ clocks, Identifier.IsName clock.function) :
    Code.clockTexts (clocksCode clocks) = clocks.map ClockObject.declaration := by
  have hlines := Code.clockTexts_map_line (f := ClockObject.declaration) (l := clocks)
    fun clock hclock => congrArg Option.isSome (read?_declaration (h clock hclock))
  unfold clocksCode
  split
  next hnone =>
    rw [List.isEmpty_iff.mp hnone]
    rfl
  next =>
    rw [Code.clockTexts_append, hlines, Code.silent_blank.clockTexts_eq, List.append_nil]

end Statements

namespace Script

variable {o : EmitOptions} {s : Script}

/-- The lines of the runtime code are not read as lines about the clocks of the script. -/
theorem silent_runtimeCode : Code.Silent read? (s.runtimeCode o) := by
  have hdeclaration : ∀ d ∈ Runtime.declarations, ∀ line ∈ d.lines, read? line = none := by
    intro d hd
    refine List.forall_mem_cons.mpr ⟨?_, fun line hline =>
      read?_of_endsWord (Runtime.endsWord_body hd line hline)⟩
    -- the first lines of the twelve declarations are closed texts
    simp only [Runtime.declarations, List.mem_cons, List.not_mem_nil, or_false] at hd
    rcases hd with rfl | rfl | rfl | rfl | rfl | rfl | rfl | rfl | rfl | rfl | rfl | rfl <;> rfl
  unfold runtimeCode
  split
  · refine (Code.silent_map_line (f := id) fun line hline => ?_).append Code.silent_blank
    obtain hblank | ⟨part, hpart, hline⟩ := Text.mem_intercalate hline
    · obtain rfl := List.mem_singleton.mp hblank
      rfl
    · obtain ⟨d, hd, rfl⟩ := List.mem_map.mp hpart
      exact hdeclaration d hd line hline
  · exact Code.silent_nil

/-- Nor are those that paint a frame. -/
theorem silent_frameCode (h : ∀ stmt ∈ s.frameBody o, stmt.NamesFunction) :
    Code.Silent read? (s.frameCode o) := by
  have hlines : Code.Silent read?
      (((s.frameBody o).flatMap (FrameStmt.lines o.contextName)).map .line) :=
    Code.silent_map_line (List.forall_mem_flatMap.mpr fun stmt hstmt =>
      FrameStmt.read?_lines (h stmt hstmt))
  -- a frame starts by clearing the page, which is a call with numbers
  have hclear : read? (o.contextName ++ ".clearRect(0, 0, " ++
      coordinates [s.bounds.width, s.bounds.height] ++ ");") = none := by
    have hparts : ".clearRect(0, 0, " = ".clearRect(" ++ "0, 0, " := rfl
    have hline : ∀ rest : String, o.contextName ++ ".clearRect(0, 0, " ++ rest ++ ");" =
        o.contextName ++ ".clearRect(" ++ ("0, 0, " ++ rest) ++ ");" := fun rest => by
      simp only [hparts, String.append_assoc]
    rw [hline]
    refine read?_of_call o.contextName (by decide) ?_
    rw [String.toList_append, List.all_append, all_isArgumentChar_coordinates]
    decide
  have hbody := (Code.silent_line hclear).append hlines
  exact (hbody.block (read?_functionLine _ _) rfl).append Code.silent_blank

/-- Nor are remarks. -/
theorem silent_summaryCode : Code.Silent read? (s.summaryCode o) := by
  unfold summaryCode
  split
  · exact Code.silent_blank.append (Code.silent_map_line fun line _ =>
      read?_of_beginsOtherwise rfl _)
  · exact Code.silent_nil

/-- Nor are the constants of the page. -/
theorem silent_pageCode : Code.Silent read? (s.pageCode o) := by
  have hcontext : read? ("const " ++ o.contextName ++ " = canvas.getContext(\"2d\")!;") = none := by
    rw [String.append_assoc]
    exact read?_of_beginsOtherwise rfl _
  have hsize := ((Code.silent_line (read?_coordinate "canvas.width = " s.bounds.width)).append
    (Code.silent_line (read?_coordinate "canvas.height = " s.bounds.height))).append
    (Code.silent_line hcontext)
  refine hsize.append ?_
  split
  · exact Code.silent_nil
  · exact Code.silent_line rfl

/-- The functions that a script speaks of, wherever it does so, have names of the right shape. -/
structure NamesFunctions (o : EmitOptions) (s : Script) : Prop where
  parts : s.PartsNamed
  scopes : ∀ scope ∈ s.scopes, scope.CallsNames
  frame : ∀ stmt ∈ s.frameBody o, stmt.NamesFunction
  wirings : ∀ w ∈ s.wirings,
    Identifier.IsName w.source.function ∧ Identifier.IsName w.target.function
  starts : ∀ clock ∈ s.starts, Identifier.IsName clock.function

/-- A script is started by its wirings, and then by the starts of its clocks. -/
theorem clockTexts_startCode (h : s.NamesFunctions o) :
    Code.clockTexts (s.startCode o) =
      s.wirings.map Wiring.line ++ s.starts.map ClockRef.startLine := by
  have hframe : read? ("drawFrame(" ++ o.contextName ++ ");") = none := by
    rw [String.append_assoc]
    exact read?_of_beginsOtherwise rfl _
  have hwirings := Code.clockTexts_map_line (f := Wiring.line) (l := s.wirings) fun w hw =>
    congrArg Option.isSome (Wiring.read?_line (h.wirings w hw).1 (h.wirings w hw).2)
  have hstarts := Code.clockTexts_map_line (f := ClockRef.startLine) (l := s.starts)
    fun clock hclock => congrArg Option.isSome (ClockRef.read?_startLine (h.starts clock hclock))
  unfold startCode
  cases hstartup : s.startup with
  | none =>
    have hnone : s.wirings = [] ∧ s.starts = [] := by
      unfold wirings starts
      rw [hstartup]
      exact ⟨rfl, rfl⟩
    rw [hnone.1, hnone.2]
    exact (Code.silent_line hframe).clockTexts_eq
  | some startup =>
    have hsome : s.wirings = startup.wirings ∧ s.starts = startup.starts := by
      unfold wirings starts
      rw [hstartup]
      exact ⟨rfl, rfl⟩
    rw [hsome.1] at hwirings ⊢
    rw [hsome.2] at hstarts ⊢
    have hupdate : read? "updateClocks();" = none := rfl
    have hopening : read? "setInterval(() => \x7b" = none := rfl
    have hclosing : read? ("\x7d, 1000 / " ++ Decimal.coordinate o.fps ++ ");") = none := by
      rw [String.append_assoc]
      exact read?_of_beginsOtherwise rfl _
    -- the timer updates clocks and paints a frame, and neither is about one clock
    have htimer := ((Code.silent_line hupdate).append (Code.silent_line hframe)).block
      hopening hclosing
    dsimp only
    rw [Code.clockTexts_append, Code.clockTexts_append, hwirings, hstarts]
    exact (congrArg _ htimer.clockTexts_eq).trans (List.append_nil _)

/-- What sets up the page and starts painting has no other lines about clocks. -/
theorem clockTexts_renderCode (h : s.NamesFunctions o) :
    Code.clockTexts (s.renderCode o) =
      s.wirings.map Wiring.line ++ s.starts.map ClockRef.startLine := by
  have hopening : read? ("export function render(canvas: HTMLCanvasElement = " ++
      canvasExpression o.canvasId ++ "): void \x7b") = none := read?_of_ending _ (by decide)
  have hclosing : Code.Silent read? [.line "\x7d"] := Code.silent_line rfl
  rw [renderCode, Code.clockTexts_block, (Code.silent_line hopening).clockTexts_eq,
    Code.clockTexts_append, silent_pageCode.clockTexts_eq, clockTexts_startCode h,
    hclosing.clockTexts_eq, List.nil_append, List.nil_append, List.append_nil]

/-- The lines of a script that have to do with clocks: one for each path and each clock that is
declared, one for each wiring, and one for each clock that is started. -/
theorem clockTexts_code (h : s.NamesFunctions o) :
    Code.clockTexts (s.code o) =
      s.paths.map PathObject.opening ++ s.clocks.map ClockObject.declaration ++
        s.wirings.map Wiring.line ++ s.starts.map ClockRef.startLine := by
  have hscopes := h.scopes
  simp only [scopes, List.forall_mem_append, List.forall_mem_map] at hscopes
  obtain ⟨⟨hsymbols, htiles⟩, hobjects⟩ := hscopes
  have hhead : Code.Silent read? [.line "// Generated by canvas-export. Do not edit.", .blank] :=
    (Code.silent_line rfl).append Code.silent_blank
  have hbounds : Code.Silent read?
      [.line ("export const bounds = " ++ s.bounds.literal ++ ";"), .blank] := by
    refine (Code.silent_line ?_).append Code.silent_blank
    unfold Box.literal
    simp only [← String.append_assoc]
    exact read?_of_semicolon _ (by decide)
  have hsymbols := Code.Silent.flatMap (f := SymbolFunction.code o.contextName) fun f hf =>
    SymbolFunction.silent_code (hsymbols f hf)
  have hobjects : Code.Silent read? (s.objects.flatMap (DrawObject.code o.contextName)) :=
    Code.Silent.flatMap fun object hobject =>
      DrawObject.silent_code (h.parts.objects object hobject) fun scope hscope =>
        hobjects scope (List.mem_filterMap.mpr ⟨object, hobject, hscope⟩)
  have hpaths := Code.clockTexts_flatMap (f := PathObject.code) fun path hpath =>
    PathObject.clockTexts_code (h.parts.paths path hpath)
  -- the parts in the order of the script
  unfold code
  simp only [Code.clockTexts_append, hhead.clockTexts_eq, silent_runtimeCode.clockTexts_eq,
    hbounds.clockTexts_eq, hsymbols.clockTexts_eq, (silent_tilesCode htiles).clockTexts_eq,
    hobjects.clockTexts_eq, hpaths, clockTexts_clocksCode h.parts.clocks,
    (silent_frameCode h.frame).clockTexts_eq, clockTexts_renderCode h,
    silent_summaryCode.clockTexts_eq, List.nil_append, List.append_nil, List.append_assoc,
    List.map_eq_flatMap]

end Script

end ArtCanvas
