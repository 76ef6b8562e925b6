import ArtCanvas.Proofs.Script.ClockTexts

/-!
# What a frame reads

The lines of the function that paints a frame are read for the values of clocks and the places on
paths that stand in them. A line either begins with the context, whatever that is called, or paints
an object, and then nothing is read.

* `Code.bodyOf`: what is in the blocks that declare a name.
* `Code.frameTerms`: what is read where a frame is painted.
* `ClockTerm.readBy`: what a line reads.
* `FrameStmt.flatMap_readBy`: what the lines of a statement read is what the statement refers to.
* `Script.frameTerms_code`: the same for the whole frame.
-/

namespace ArtCanvas

open Identifier (isWordChar EndsWord)

/-! ### Reading a line -/

namespace ClockTerm

/-- What is read by a place: the value of a clock, or the coordinates or the angle on a path. -/
def operand? (place : List Char) : Option ClockTerm :=
  match Text.cutLast '.' place with
  | some (front, member) =>
    if member = "value".toList then some (.constant (String.ofList front))
    else if member ∈ ["x".toList, "y".toList, "angle".toList] then
      some (.ofPath (String.ofList front))
    else none
  | none => none

/-- What is read by the places among some characters. -/
def operands (cs : List Char) : List ClockTerm :=
  (cs.splitOnP fun c => !isPlaceChar c).filterMap operand?

/-- What a line reads that does something with the context. -/
def readBy (ctx line : String) : List ClockTerm :=
  match line.toList.dropPrefix? (ctx ++ ".").toList with
  | some rest => operands rest
  | none => []

/-- The value of a clock is read off its name. -/
theorem operand?_value {name : String} :
    operand? (name ++ ".value").toList = some (.constant name) := by
  have hcut : Text.cutLast '.' (name ++ ".value").toList = some (name.toList, "value".toList) :=
    Text.cutLast_eq_some_iff.mpr ⟨by simp, by decide⟩
  rw [operand?, hcut]
  exact congrArg (some ∘ ClockTerm.constant) String.ofList_toList

/-- A place on a path is read off the name of the path. -/
theorem operand?_path {path member : String} (h : member ∈ ["x", "y", "angle"]) :
    operand? (path ++ "." ++ member).toList = some (.ofPath path) := by
  have hmember : '.' ∉ member.toList ∧ member.toList ≠ "value".toList ∧
      member.toList ∈ ["x".toList, "y".toList, "angle".toList] := by
    simp only [List.mem_cons, List.not_mem_nil, or_false] at h
    rcases h with rfl | rfl | rfl <;> decide
  have hcut : Text.cutLast '.' (path ++ "." ++ member).toList =
      some (path.toList, member.toList) :=
    Text.cutLast_eq_some_iff.mpr ⟨by simp, hmember.1⟩
  rw [operand?, hcut]
  dsimp only
  rw [if_neg hmember.2.1, if_pos hmember.2.2, String.ofList_toList]

/-- What reads something has a point in it, and one of three letters. -/
theorem exists_mem_of_operand? {place : List Char} {term : ClockTerm}
    (h : operand? place = some term) :
    '.' ∈ place ∧ ∃ c ∈ place, c ∈ ['e', 'x', 'y'] := by
  unfold operand? at h
  split at h
  next front member hcut =>
    obtain ⟨rfl, -⟩ := Text.cutLast_eq_some_iff.mp hcut
    refine ⟨by simp, ?_⟩
    -- each of the four members has one of the letters
    have hletter : ∀ member ∈ ["value".toList, "x".toList, "y".toList, "angle".toList],
        ∃ c ∈ member, c ∈ ['e', 'x', 'y'] := by simp
    have hmember : member ∈ ["value".toList, "x".toList, "y".toList, "angle".toList] := by
      split at h
      next heq => exact List.mem_cons.mpr (Or.inl heq)
      next =>
        split at h
        next hmem => exact List.mem_cons_of_mem _ hmem
        next => cases h
    obtain ⟨c, hc, hletter⟩ := hletter member hmember
    exact ⟨c, by simp [hc], hletter⟩
  next => cases h

/-- The places among some characters have no other characters. -/
theorem subset_of_mem_splitOnP {p : Char → Bool} {cs piece : List Char}
    (h : piece ∈ cs.splitOnP p) : piece ⊆ cs := by
  induction cs generalizing piece with
  | nil =>
    obtain rfl : piece = [] := by simpa using h
    exact List.Subset.refl _
  | cons c cs ih =>
    rw [List.splitOnP_cons_eq_if_modifyHead] at h
    split at h
    · rcases List.mem_cons.mp h with rfl | h
      · exact List.nil_subset _
      · exact List.Subset.trans (ih h) (List.subset_cons_self _ _)
    · -- the character goes to the first piece
      cases hpieces : cs.splitOnP p with
      | nil => exact absurd hpieces (List.splitOnP_ne_nil p cs)
      | cons first pieces =>
        rw [hpieces] at h ih
        rcases List.mem_cons.mp h with rfl | h
        · exact List.cons_subset_cons _ (ih List.mem_cons_self)
        · exact List.Subset.trans (ih (List.mem_cons_of_mem _ h)) (List.subset_cons_self _ _)

/-- Without a point, or without the letters of a member, nothing is read. -/
theorem operands_eq_nil {cs : List Char} (h : '.' ∉ cs ∨ ∀ c ∈ ['e', 'x', 'y'], c ∉ cs) :
    operands cs = [] := by
  refine List.filterMap_eq_nil_iff.mpr fun place hplace => ?_
  rw [Option.eq_none_iff_forall_ne_some]
  intro term hterm
  have hsubset := subset_of_mem_splitOnP hplace
  obtain ⟨hpoint, c, hc, hletter⟩ := exists_mem_of_operand? hterm
  rcases h with h | h
  · exact h (hsubset hpoint)
  · exact h c hletter (hsubset hc)

/-- The first place is read by itself. -/
theorem operands_append_cons {place rest : List Char} {c : Char}
    (hplace : place.all isPlaceChar = true) (hc : isPlaceChar c = false) :
    operands (place ++ c :: rest) = (operand? place).toList ++ operands rest := by
  have hsplit : (place ++ c :: rest).splitOnP (fun c => !isPlaceChar c) =
      place :: rest.splitOnP fun c => !isPlaceChar c :=
    List.splitOnP_append_cons_of_forall_mem
      (fun d hd => by simp [List.all_eq_true.mp hplace d hd]) c (by simp [hc]) rest
  rw [operands, hsplit]
  cases hoperand : operand? place with
  | none => rw [List.filterMap_cons_none hoperand]; rfl
  | some term => rw [List.filterMap_cons_some hoperand]; rfl

/-- A character between two places is passed over. -/
theorem operands_cons {c : Char} (hc : isPlaceChar c = false) {rest : List Char} :
    operands (c :: rest) = operands rest :=
  @operands_append_cons [] rest c rfl hc

/-- A line that does something with the context is read behind the context. -/
theorem readBy_eq {ctx line : String} {rest : List Char}
    (h : line.toList = ctx.toList ++ '.' :: rest) : readBy ctx line = operands rest := by
  have hprefix : line.toList.dropPrefix? (ctx ++ ".").toList = some rest := by
    have hline : line.toList = (ctx ++ ".").toList ++ rest := by simp [h]
    rw [hline]
    exact List.dropPrefix?_append_of_beq _ BEq.rfl
  rw [readBy, hprefix]

end ClockTerm

/-! ### The lines of a statement -/

/-- The clocks and paths that the lines of a statement read, in the order in which they are read. -/
def FrameStmt.terms : FrameStmt → List ClockTerm
  | .moveAlong function =>
    [.ofPath (Identifier.escape function), .ofPath (Identifier.escape function)]
  | .turnAlong function _ => [.ofPath (Identifier.escape function)]
  | .applyClock function .rotate => [.constant (drawClockName function .rotate)]
  | .applyClock function .scale =>
    [.constant (drawClockName function .scale), .constant (drawClockName function .scale)]
  | .applyClock function .alpha => [.constant (drawClockName function .alpha)]
  | _ => []

section Lines

variable {ctx : String}

open ClockTerm

/-- What is read is what the statement refers to. -/
theorem FrameStmt.exists_clockRef_of_mem_terms {stmt : FrameStmt} {term : ClockTerm}
    (h : term ∈ stmt.terms) : ∃ r, stmt.clockRef? = some r ∧ r.term = term := by
  cases stmt with
  | moveAlong function =>
    simp only [terms, List.mem_cons, List.not_mem_nil, or_false, or_self] at h
    exact ⟨_, rfl, h.symm⟩
  | turnAlong function degrees =>
    exact ⟨_, rfl, (List.mem_singleton.mp h).symm⟩
  -- a statement reads one clock, although it may read it twice
  | applyClock function kind =>
    refine ⟨_, rfl, ?_⟩
    cases kind with
    | path => cases h
    | rotate => exact (List.mem_singleton.mp h).symm
    | scale =>
      simp only [terms, List.mem_cons, List.not_mem_nil, or_false, or_self] at h
      exact h.symm
    | alpha => exact (List.mem_singleton.mp h).symm
  | save | restore | move | paint | markStyle | mark => cases h

/-- A line that begins with the context and has no other point reads nothing. -/
theorem readBy_of_not_mem {rest : List Char} (h : '.' ∉ rest) :
    readBy ctx (ctx ++ String.ofList ('.' :: rest)) = [] := by
  have hline : (ctx ++ String.ofList ('.' :: rest)).toList = ctx.toList ++ '.' :: rest := by simp
  rw [readBy_eq hline, operands_eq_nil (Or.inl h)]

/-- A character that is neither of numbers nor between them does not stand in coordinates. -/
theorem not_mem_coordinates {c : Char} (hc : Decimal.isNumberChar c = false)
    (hcomma : c ∉ ", ".toList) (xs : List Float) : c ∉ (coordinates xs).toList := by
  intro hmem
  rw [coordinates, String.toList_intercalate] at hmem
  rcases Text.mem_intercalate hmem with hmem | ⟨part, hpart, hmem⟩
  · exact hcomma hmem
  · obtain ⟨text, htext, rfl⟩ := List.mem_map.mp hpart
    obtain ⟨x, -, rfl⟩ := List.mem_map.mp htext
    exact Decimal.not_mem_coordinate hc x hmem

/-- Numbers that are given to a method of the context are no clocks. -/
theorem readBy_coordinates {line : String} {method more : List Char} {xs : List Float}
    (hline : line.toList = ctx.toList ++ '.' :: (method ++ '(' ::
      (more ++ (coordinates xs).toList ++ ");".toList)))
    (hmethod : method.all isPlaceChar = true ∧ '.' ∉ method)
    (hmore : ∀ c ∈ ['e', 'x', 'y'], c ∉ more) : readBy ctx line = [] := by
  have hnone : operand? method = none :=
    Option.eq_none_iff_forall_ne_some.mpr fun _ h => hmethod.2 (exists_mem_of_operand? h).1
  -- in the numbers there is no letter of a member
  have hletters : ∀ c ∈ ['e', 'x', 'y'],
      c ∉ more ++ (coordinates xs).toList ++ ");".toList := by
    have hclosed : ∀ c ∈ ['e', 'x', 'y'], Decimal.isNumberChar c = false ∧ c ∉ ", ".toList ∧
        c ∉ ");".toList := by simp [Decimal.isNumberChar]
    intro c hc hmem
    obtain ⟨hnumber, hcomma, hend⟩ := hclosed c hc
    rcases List.mem_append.mp hmem with hmem | hmem
    · rcases List.mem_append.mp hmem with hmem | hmem
      · exact hmore c hc hmem
      · exact not_mem_coordinates hnumber hcomma xs hmem
    · exact hend hmem
  rw [readBy_eq hline, operands_append_cons hmethod.1 rfl, hnone,
    operands_eq_nil (Or.inr hletters)]
  rfl

/-- A word has no point in it. -/
theorem not_mem_of_word {cs : List Char} (h : cs.all isWordChar = true) : '.' ∉ cs :=
  Text.not_mem_of_all_isWordChar rfl h

/-- A line that calls a method of an object, and nothing else, reads nothing, even if it begins like
the context. -/
theorem readBy_paint {name : String} (hname : name.toList.all isWordChar = true) :
    readBy ctx (name ++ ".paint(" ++ ctx ++ ");") = [] := by
  unfold readBy
  split
  next rest hrest =>
    -- the context has all the points of the line but one
    have hline := ClockLine.dropPrefix?_eq_some hrest
    have hcount := congrArg (List.count '.') hline
    have hfree := List.count_eq_zero.mpr (not_mem_of_word hname)
    simp only [String.toList_append, List.count_append, hfree] at hcount
    have hpoint : List.count '.' ".paint(".toList = 1 ∧ List.count '.' ");".toList = 0 ∧
        List.count '.' ".".toList = 1 := by decide
    have hzero : List.count '.' rest = 0 := by omega
    exact operands_eq_nil (Or.inl (List.count_eq_zero.mp hzero))
  next => rfl

/-- A member of a path is written with names and a point. -/
theorem all_isPlaceChar_member {function : String} (h : Identifier.IsName function)
    (member : String) (hmember : member.toList.all isPlaceChar = true) :
    (Identifier.escape function ++ "." ++ member).toList.all isPlaceChar = true := by
  rw [String.toList_append, String.toList_append, List.all_append, List.all_append,
    ClockLine.all_isPlaceChar_of_word h.all_escape, hmember]
  decide

/-- The line that moves the origin along a path reads both coordinates of the place. -/
theorem readBy_moveAlong {function : String} (h : Identifier.IsName function) :
    readBy ctx (ctx ++ ".translate(" ++ Identifier.escape function ++ ".x(), "
      ++ Identifier.escape function ++ ".y());") =
      [.ofPath (Identifier.escape function), .ofPath (Identifier.escape function)] := by
  have hplace := all_isPlaceChar_member h
  have hline : ∀ path : String, (ctx ++ ".translate(" ++ path ++ ".x(), " ++ path
      ++ ".y());").toList = ctx.toList ++ '.' :: ("translate".toList ++ '(' ::
        ((path ++ "." ++ "x").toList ++ '(' :: ')' :: ',' :: ' ' ::
          ((path ++ "." ++ "y").toList ++ '(' :: "));".toList))) := by
    simp
  rw [readBy_eq (hline _), operands_append_cons (by decide) rfl,
    operands_append_cons (hplace _ (by decide)) rfl, operands_cons rfl, operands_cons rfl,
    operands_cons rfl, operands_append_cons (hplace _ (by decide)) rfl, operand?_path (by decide),
    operand?_path (by decide)]
  rfl

/-- The line that turns the context along a path reads the angle. A constant that may be added to it
has no letters. -/
theorem readBy_turnAlong {function more : String} (h : Identifier.IsName function)
    (hmore : ∀ c ∈ ['e', 'x', 'y'], c ∉ more.toList) :
    readBy ctx (ctx ++ ".rotate(" ++ Identifier.escape function ++ ".angle()" ++ more ++ ");") =
      [.ofPath (Identifier.escape function)] := by
  have hplace := all_isPlaceChar_member h "angle" (by decide)
  have hline : ∀ path : String, (ctx ++ ".rotate(" ++ path ++ ".angle()" ++ more
      ++ ");").toList = ctx.toList ++ '.' :: ("rotate".toList ++ '(' ::
        ((path ++ "." ++ "angle").toList ++ '(' :: (')' :: more.toList ++ ");".toList))) := by
    simp
  have hrest : ∀ c ∈ ['e', 'x', 'y'], c ∉ ')' :: more.toList ++ ");".toList := by
    have hclosed : ∀ c ∈ ['e', 'x', 'y'], c ≠ ')' ∧ c ∉ ");".toList := by simp
    intro c hc
    simp only [List.mem_append, List.mem_cons, not_or]
    exact ⟨⟨(hclosed c hc).1, hmore c hc⟩, (hclosed c hc).2⟩
  rw [readBy_eq (hline _), operands_append_cons (by decide) rfl, operands_append_cons hplace rfl,
    operand?_path (by decide), operands_eq_nil (Or.inr hrest)]
  rfl

/-- The angle that is added to the direction of a path has no letters of a member. -/
theorem not_mem_addedAngle (degrees : Float) : ∀ c ∈ ['e', 'x', 'y'],
    c ∉ (if degrees == 0.0 then "" else " + " ++ Decimal.coordinate (radians degrees)).toList := by
  have hclosed : ∀ c ∈ ['e', 'x', 'y'], Decimal.isNumberChar c = false ∧ c ∉ " + ".toList := by
    simp [Decimal.isNumberChar]
  intro c hc
  obtain ⟨hnumber, hplus⟩ := hclosed c hc
  split
  · exact List.not_mem_nil
  · rw [String.toList_append, List.mem_append, not_or]
    exact ⟨hplus, Decimal.not_mem_coordinate hnumber _⟩

/-- The lines that change the context by a clock read its value, once for each direction. -/
theorem flatMap_readBy_clockLines {function : String} (h : Identifier.IsName function)
    (kind : ClockKind) : (FrameStmt.clockLines ctx function kind).flatMap (readBy ctx) =
      (FrameStmt.applyClock function kind).terms := by
  have hvalue := all_isPlaceChar_value h kind
  -- each line is cut at the characters that stand in no place
  unfold FrameStmt.clockLines
  cases kind with
  | path => rfl
  | rotate =>
    have hline : ∀ value : String, (ctx ++ ".rotate(" ++ value ++ ");").toList =
        ctx.toList ++ '.' :: ("rotate".toList ++ '(' :: (value.toList ++ ')' :: [';'])) := by
      simp
    rw [List.flatMap_singleton, readBy_eq (hline _), operands_append_cons (by decide) rfl,
      operands_append_cons hvalue rfl, operand?_value]
    rfl
  | scale =>
    have hline : ∀ value : String, (ctx ++ ".scale(" ++ value ++ ", " ++ value ++ ");").toList =
        ctx.toList ++ '.' :: ("scale".toList ++ '(' :: (value.toList ++ ',' :: ' ' ::
          (value.toList ++ ')' :: [';']))) := by
      simp
    rw [List.flatMap_singleton, readBy_eq (hline _), operands_append_cons (by decide) rfl,
      operands_append_cons hvalue rfl, operands_cons rfl, operands_append_cons hvalue rfl,
      operand?_value]
    rfl
  | alpha =>
    have hline : ∀ value : String, (ctx ++ ".globalAlpha *= " ++ value ++ ";").toList =
        ctx.toList ++ '.' :: ("globalAlpha".toList ++ ' ' :: '*' :: '=' :: ' ' ::
          (value.toList ++ [';'])) := by
      simp
    rw [List.flatMap_singleton, readBy_eq (hline _), operands_append_cons (by decide) rfl,
      operands_cons rfl, operands_cons rfl, operands_cons rfl, operands_append_cons hvalue rfl,
      operand?_value]
    rfl

/-- The lines of a statement read what the statement refers to. -/
theorem FrameStmt.flatMap_readBy {stmt : FrameStmt} (h : stmt.NamesFunction) :
    (stmt.lines ctx).flatMap (readBy ctx) = stmt.terms := by
  have hsingle : ∀ {line : String} {terms : List ClockTerm}, readBy ctx line = terms →
      [line].flatMap (readBy ctx) = terms := fun h => (List.flatMap_singleton _ _).trans h
  cases stmt with
  | save => exact hsingle (readBy_of_not_mem (by decide))
  | restore => exact hsingle (readBy_of_not_mem (by decide))
  | move offset =>
    have hline : (ctx ++ ".translate(" ++ coordinates [offset.x, offset.y] ++ ");").toList =
        ctx.toList ++ '.' :: ("translate".toList ++ '(' ::
          ([] ++ (coordinates [offset.x, offset.y]).toList ++ ");".toList)) := by
      simp
    exact hsingle (readBy_coordinates hline (by decide) (by simp))
  | moveAlong function => exact hsingle (readBy_moveAlong (h function rfl))
  | turnAlong function degrees =>
    exact hsingle (readBy_turnAlong (h function rfl) (not_mem_addedAngle degrees))
  | applyClock function kind => exact flatMap_readBy_clockLines (h function rfl) kind
  | paint function => exact hsingle (readBy_paint (h function rfl).all_escape)
  | markStyle => exact hsingle (readBy_of_not_mem (by decide))
  | mark => exact hsingle (readBy_of_not_mem (by decide))

end Lines

/-! ### The lines of a frame -/

namespace Code

/-- What is in a block that declares a name, where `declares` reads the names. -/
def bodyIn (declares : String → Option String) (name : String) : Code → List Code
  | .block opening body _ => if declares opening = some name then body else []
  | _ => []

/-- What is in the blocks that declare a name. -/
def bodyOf (declares : String → Option String) (name : String) (code : List Code) : List Code :=
  code.flatMap (bodyIn declares name)

/-- The clocks and paths that are read where a frame is painted. -/
def frameTerms (ctx : String) (code : List Code) : List ClockTerm :=
  (lineTextsOf (bodyOf declaredBy "drawFrame" code)).flatMap (ClockTerm.readBy ctx)

section BodyOf

variable {declares : String → Option String} {name : String} {code : List Code}

/-- A body is looked for in two parts one after the other. -/
theorem bodyOf_append (code code' : List Code) :
    bodyOf declares name (code ++ code') =
      bodyOf declares name code ++ bodyOf declares name code' :=
  List.flatMap_append

/-- Where no block declares the name, there is nothing. -/
theorem bodyOf_eq_nil (h : ∀ opening body closing, .block opening body closing ∈ code →
    declares opening ≠ some name) : bodyOf declares name code = [] := by
  refine List.flatMap_eq_nil_iff.mpr fun piece hpiece => ?_
  cases piece with
  | block opening body closing => exact if_neg (h opening body closing hpiece)
  | line | blank => rfl

/-- What is not declared has no block. -/
theorem bodyOf_declaredBy_eq_nil (h : name ∉ declaredNames code) :
    bodyOf declaredBy name code = [] :=
  bodyOf_eq_nil fun _ _ _ hpiece hname => h (List.mem_filterMap.mpr ⟨_, hpiece, hname⟩)

end BodyOf

end Code

namespace Script

variable {o : EmitOptions} {s : Script}

/-- A name that every script of the kind has is declared once. -/
theorem count_declaredNames_of_mem_fixedNames (h : s.PartsNamed) {name : String}
    (hname : name ∈ s.fixedNames o) : (Code.declaredNames (s.code o)).count name = 1 := by
  have hmade : name ∉ s.madeNames.map Identifier.escape := by
    intro hmem
    obtain ⟨made, hmade, rfl⟩ := List.mem_map.mp hmem
    exact escape_not_mem_fixedNames (h.isName_madeNames hmade) hname
  rw [declaredNames_code h, perm_moduleNames.count_eq, List.count_append,
    List.count_eq_one_of_mem nodup_fixedNames hname, List.count_eq_zero.mpr hmade]

/-- So what it declares is found in the part that declares it. -/
theorem bodyOf_eq_of_mem_fixedNames (h : s.PartsNamed) {name : String}
    (hname : name ∈ s.fixedNames o) {front part back : List Code}
    (hcode : s.code o = front ++ part ++ back) (hpart : name ∈ Code.declaredNames part) :
    Code.bodyOf declaredBy name (s.code o) = Code.bodyOf declaredBy name part := by
  have hcount := count_declaredNames_of_mem_fixedNames h hname
  have hone := List.one_le_count_iff.mpr hpart
  rw [hcode, Code.declaredNames_append, Code.declaredNames_append, List.count_append,
    List.count_append] at hcount
  have hfront : name ∉ Code.declaredNames front := List.count_eq_zero.mp (by omega)
  have hback : name ∉ Code.declaredNames back := List.count_eq_zero.mp (by omega)
  rw [hcode, Code.bodyOf_append, Code.bodyOf_append, Code.bodyOf_declaredBy_eq_nil hfront,
    Code.bodyOf_declaredBy_eq_nil hback, List.nil_append, List.append_nil]

/-- The lines of a frame are those of its statements, behind the one that clears the canvas. -/
theorem bodyOf_drawFrame (h : s.PartsNamed) :
    Code.bodyOf declaredBy "drawFrame" (s.code o) =
      .line (o.contextName ++ ".clearRect(0, 0, " ++
        coordinates [s.bounds.width, s.bounds.height] ++ ");") ::
        ((s.frameBody o).flatMap (FrameStmt.lines o.contextName)).map .line := by
  -- what stands before and after the frame declares other names
  have hcode : s.code o = _ ++ s.frameCode o ++ (s.renderCode o ++ s.summaryCode o) :=
    List.append_assoc _ _ _
  have hdeclared : "drawFrame" ∈ Code.declaredNames (s.frameCode o) := by
    rw [declaredNames_frameCode]
    exact List.mem_singleton_self _
  have hframe : declaredBy ("export function " ++ functionLine "drawFrame" o.contextName) =
      some "drawFrame" :=
    declaredBy_functionLine mem_declarationStarts.2.2 (by decide) o.contextName
  rw [bodyOf_eq_of_mem_fixedNames h (by simp [fixedNames]) hcode hdeclared, frameCode, Code.bodyOf,
    List.flatMap_cons, Code.bodyIn, if_pos hframe]
  exact List.append_nil _

/-- What is read where a frame is painted is what its statements refer to. -/
theorem frameTerms_code (h : s.NamesFunctions o) :
    Code.frameTerms o.contextName (s.code o) = (s.frameBody o).flatMap FrameStmt.terms := by
  -- the page is cleared without a clock
  have hclear : ClockTerm.readBy o.contextName (o.contextName ++ ".clearRect(0, 0, " ++
      coordinates [s.bounds.width, s.bounds.height] ++ ");") = [] := by
    have hline : (o.contextName ++ ".clearRect(0, 0, " ++
        coordinates [s.bounds.width, s.bounds.height] ++ ");").toList =
        o.contextName.toList ++ '.' :: ("clearRect".toList ++ '(' :: ("0, 0, ".toList ++
          (coordinates [s.bounds.width, s.bounds.height]).toList ++ ");".toList)) := by
      simp
    exact readBy_coordinates hline (by decide) (by simp)
  rw [Code.frameTerms, bodyOf_drawFrame h.parts, Code.lineTextsOf, Code.lineTextsOf_lines,
    Code.lineTexts, List.singleton_append, List.flatMap_cons, hclear, List.nil_append,
    List.flatMap_assoc]
  exact List.flatMap_congr fun stmt hstmt => FrameStmt.flatMap_readBy (h.frame stmt hstmt)

end Script

end ArtCanvas
