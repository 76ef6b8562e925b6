import ArtCanvas.Proofs.Script.Delimiters
import ArtCanvas.Proofs.Script.SymbolCalls
import ArtCanvas.Proofs.Text.Pieces

/-!
# States that statements keep and go back to

Statements keep the state of the context before they move or turn it, and go back to it afterwards.
What the context is called is up to the user of a script, so a line that keeps or restores a state
is told apart from all other lines by its ending, or by a character that it does not have.

* `contextCall?`: the lines that keep or restore a state.
* `Stmt.filterMap_lines`, `FrameStmt.filterMap_lines`: statements are written by lines that do what
  they do.
* `FrameCall.balanced_body`, `Outline.balanced_paintNode`: a function is painted in a frame, and art
  is painted, with as many states restored as were kept.
-/

namespace ArtCanvas

open Delimiter (Balanced)

/-! ### Lines -/

/-- What a line does with the states of the context that is called `ctx`. -/
def contextCall? (ctx line : String) : Option Delimiter :=
  if line = ctx ++ ".save();" then some .enter
  else if line = ctx ++ ".restore();" then some .leave
  else none

/-- What stands in such a line behind the name of the context. -/
def stateCalls : List String := [".save();", ".restore();"]

/-- The characters of these endings. -/
def callChars : List Char := ['.', 's', 'a', 'v', 'e', 'r', 't', 'o', '(', ')', ';']

section Lines

variable {ctx : String}

/-- The line that saves the state of the context. -/
theorem contextCall?_save (ctx : String) : contextCall? ctx (ctx ++ ".save();") = some .enter :=
  if_pos rfl

/-- The line that restores it. -/
theorem contextCall?_restore (ctx : String) :
    contextCall? ctx (ctx ++ ".restore();") = some .leave := by
  rw [contextCall?, if_neg, if_pos rfl]
  exact fun heq => absurd ((String.append_right_inj ctx).mp heq) (by decide)

/-- Every other line does neither. -/
theorem contextCall?_eq_none {line : String} (h : ∀ call ∈ stateCalls, line ≠ ctx ++ call) :
    contextCall? ctx line = none := by
  rw [contextCall?, if_neg (h _ (by simp [stateCalls])), if_neg (h _ (by simp [stateCalls]))]

/-- A line with the context in it and another character than those of calls is none. -/
theorem contextCall?_of_mem {front rest : String} (c : Char) (hc : c ∉ callChars)
    (h : c ∈ front.toList ∨ c ∈ rest.toList) :
    contextCall? ctx (front ++ (ctx ++ rest)) = none := by
  refine contextCall?_eq_none fun call hcall heq => ?_
  have hfree : c ∉ call.toList := by
    have hall : ∀ call ∈ stateCalls, call.toList ⊆ callChars := by simp [stateCalls, callChars]
    exact fun hmem => hc (hall call hcall hmem)
  -- the character stands more often in the line than in the name of the context
  have hcount := congrArg (fun line => line.toList.count c) heq
  simp only [String.toList_append, List.count_append, List.count_eq_zero.mpr hfree] at hcount
  rw [← List.count_pos_iff, ← List.count_pos_iff] at h
  omega

/-- A line with a character that neither of the calls has is another one. -/
theorem contextCall?_append {rest : String} (c : Char) (hc : c ∉ callChars)
    (h : c ∈ rest.toList) : contextCall? ctx (ctx ++ rest) = none := by
  have hline : contextCall? ctx ("" ++ (ctx ++ rest)) = none :=
    contextCall?_of_mem c hc (Or.inr h)
  rwa [String.empty_append] at hline

/-- Neither of two texts is the ending of the other one. -/
def EndsOtherwise (text text' : List Char) : Prop := ¬ text <:+ text' ∧ ¬ text' <:+ text

/-- Where two texts end is compared from behind. -/
instance (text text' : List Char) : Decidable (EndsOtherwise text text') := by
  unfold EndsOtherwise
  infer_instance

/-- Texts with such endings are different. -/
theorem EndsOtherwise.append_ne {ending ending' : List Char} (h : EndsOtherwise ending ending')
    (front front' : List Char) : front ++ ending ≠ front' ++ ending' := by
  intro heq
  -- of two endings of one text the shorter one is an ending of the longer one
  have hsuffix : ending' <:+ front ++ ending := heq ▸ List.suffix_append _ _
  exact (List.suffix_or_suffix_of_suffix (List.suffix_append _ _) hsuffix).elim h.1 h.2

/-- A line with another ending than calls have is none. -/
theorem contextCall?_of_ending (front : String) {ending : List Char}
    (h : ∀ call ∈ stateCalls, EndsOtherwise ending call.toList) :
    contextCall? ctx (front ++ String.ofList ending) = none := by
  refine contextCall?_eq_none fun call hcall heq => ?_
  rw [← String.toList_inj, String.toList_append, String.toList_append, String.toList_ofList] at heq
  exact (h call hcall).append_ne _ _ heq

/-- A line that does not end in a semicolon is none. -/
theorem contextCall?_of_getLast? {line : String} (h : line.toList.getLast? ≠ some ';') :
    contextCall? ctx line = none := by
  have hcalls : ∀ call ∈ stateCalls, call.toList.getLast? = some ';' := by decide
  refine contextCall?_eq_none fun call hcall heq => h ?_
  rw [heq, String.toList_append, List.getLast?_append, hcalls call hcall, Option.some_or]

/-- A line that has a semicolon at its end, but no empty parentheses before that, is none. -/
theorem contextCall?_of_semicolon (front : String) {middle : List Char}
    (h : EndsOtherwise middle ['(', ')']) :
    contextCall? ctx (front ++ String.ofList middle ++ ";") = none := by
  have hcalls : ∀ call ∈ stateCalls, ∃ before, call = before ++ "();" := by
    simp only [stateCalls, List.forall_mem_cons]
    exact ⟨⟨".save", rfl⟩, ⟨".restore", rfl⟩, nofun⟩
  refine contextCall?_eq_none fun call hcall heq => ?_
  -- without the semicolon the call would still end in its parentheses
  obtain ⟨before, rfl⟩ := hcalls call hcall
  have hsame : front ++ String.ofList middle = ctx ++ before ++ "()" := by
    refine (String.append_left_inj ";").mp ?_
    rw [heq, String.append_assoc, String.append_assoc]
    rfl
  rw [← String.toList_inj, String.toList_append, String.toList_append, String.toList_ofList]
    at hsame
  exact h.append_ne _ _ hsame

/-- The characters end like a call. -/
def endsInCall (line : List Char) : Bool := stateCalls.any fun call => call.toList.isSuffixOf line

/-- A line that does not end in a call does neither. -/
theorem contextCall?_ofList {line : List Char} (h : endsInCall line = false) :
    contextCall? ctx (String.ofList line) = none := by
  refine contextCall?_eq_none fun call hcall heq => ?_
  have hline := List.any_eq_false.mp h call hcall
  rw [List.isSuffixOf_iff_suffix, ← String.toList_ofList (l := line), heq,
    String.toList_append] at hline
  exact hline (List.suffix_append _ _)

end Lines

/-! ### Statements -/

/-- What a drawing statement does with the states of the context. -/
def Stmt.delimiter? : Stmt → Option Delimiter
  | .save => some .enter
  | .restore => some .leave
  | _ => none

/-- What a statement of a frame does with the states of the context. -/
def FrameStmt.delimiter? : FrameStmt → Option Delimiter
  | .save => some .enter
  | .restore => some .leave
  | _ => none

/-- A remark or a call is one that the built-in renderer writes. -/
def Stmt.Ordinary : Stmt → Prop
  | .comment text => text = Outline.recursionNote
  | .callSymbol function => 'y' ∈ function.toList
  | _ => True

section Statements

variable {ctx : String}

/-- A statement with one other line does nothing with the states. -/
theorem filterMap_other {line : String} (h : contextCall? ctx line = none) :
    [line].filterMap (contextCall? ctx) = [] :=
  List.filterMap_cons_none h

/-- A movement of the pen neither saves nor restores. -/
theorem PathElement.contextCall?_statement (element : PathElement) :
    contextCall? ctx (element.statement ctx) = none := by
  unfold PathElement.statement
  simp only [String.append_assoc]
  cases element with
  | move p => exact contextCall?_append 'm' (by decide) (by simp)
  | line p => exact contextCall?_append 'l' (by decide) (by simp)
  | quad c p => exact contextCall?_append 'q' (by decide) (by simp)
  | cubic c₁ c₂ p => exact contextCall?_append 'b' (by decide) (by simp)
  | close => exact contextCall?_append 'P' (by decide) (by simp)

/-- Both properties that take a paint have an `l` in them, which the calls have not. -/
theorem PaintTarget.mem_property (target : PaintTarget) : 'l' ∈ target.property.toList := by
  cases target <;> simp [PaintTarget.property]

/-- A literal ends in its quotation mark. -/
theorem Text.exists_quote_eq (text : String) : ∃ front, Text.quote text = front ++ "\x22" :=
  ⟨String.ofList ('\x22' :: Text.encode text.toList), String.ofList_append⟩

/-- The lines of a statement do with the states of the context what the statement does. -/
theorem Stmt.filterMap_lines {stmt : Stmt} (h : stmt.Ordinary) :
    (stmt.lines ctx).filterMap (contextCall? ctx) = stmt.delimiter?.toList := by
  -- all lines but two have a character that these two do not have, or another ending
  unfold lines
  simp only [String.append_assoc]
  cases stmt with
  | save => exact List.filterMap_cons_some (contextCall?_save ctx)
  | restore => exact List.filterMap_cons_some (contextCall?_restore ctx)
  | comment text =>
    obtain rfl := h
    dsimp only [Outline.recursionNote, String.reduceAppend]
    exact filterMap_other (contextCall?_ofList rfl)
  | setAlpha factor => exact filterMap_other (contextCall?_append 'g' (by decide) (by simp))
  | resetAlpha => exact filterMap_other (contextCall?_append 'g' (by decide) (by simp))
  | translate p => exact filterMap_other (contextCall?_append 'n' (by decide) (by simp))
  | scale x y => exact filterMap_other (contextCall?_append 'c' (by decide) (by simp))
  | callSymbol function =>
    refine filterMap_other ?_
    rw [← String.append_assoc]
    exact contextCall?_of_mem 'y' (by decide) (Or.inl (by simp [show 'y' ∈ function.toList from h]))
  | outline node path =>
    have hpath : (path.map (PathElement.statement ctx)).filterMap (contextCall? ctx) = [] := by
      rw [List.filterMap_map, List.filterMap_eq_nil_iff]
      exact fun element _ => element.contextCall?_statement
    dsimp only
    rw [List.filterMap_cons_none (contextCall?_append 'b' (by decide) (by simp)), hpath]
    rfl
  | solidStyle target css =>
    exact filterMap_other (contextCall?_append 'l' (by decide) (by simp [target.mem_property]))
  | makeGradient p q =>
    exact filterMap_other (contextCall?_of_mem 'g' (by decide) (Or.inl (by simp)))
  | addStop offset css =>
    obtain ⟨front, hquote⟩ := Text.exists_quote_eq css
    refine filterMap_other ?_
    -- the quotation mark and the rest of the line are one literal
    rw [hquote]
    simp only [String.append_assoc, String.reduceAppend]
    simp only [← String.append_assoc]
    exact contextCall?_of_ending _ (by decide)
  | gradientStyle target =>
    exact filterMap_other (contextCall?_append 'l' (by decide) (by simp [target.mem_property]))
  | makePattern canvas =>
    exact filterMap_other (contextCall?_of_mem 'p' (by decide) (Or.inl (by simp)))
  | patternStyle target =>
    exact filterMap_other (contextCall?_append 'l' (by decide) (by simp [target.mem_property]))
  | fill => exact filterMap_other (contextCall?_append 'f' (by decide) (by simp))
  | lineWidth width => exact filterMap_other (contextCall?_append 'l' (by decide) (by simp))
  | stroke => exact filterMap_other (contextCall?_append 'k' (by decide) (by simp))

/-- The lines of a statement of a frame do so too. -/
theorem FrameStmt.filterMap_lines (stmt : FrameStmt) :
    (stmt.lines ctx).filterMap (contextCall? ctx) = stmt.delimiter?.toList := by
  -- as above, with a line for each clock
  unfold lines
  simp only [String.append_assoc]
  cases stmt with
  | save => exact List.filterMap_cons_some (contextCall?_save ctx)
  | restore => exact List.filterMap_cons_some (contextCall?_restore ctx)
  | move offset => exact filterMap_other (contextCall?_append 'n' (by decide) (by simp))
  | moveAlong function => exact filterMap_other (contextCall?_append 'n' (by decide) (by simp))
  | turnAlong function degrees =>
    exact filterMap_other (contextCall?_append 'g' (by decide) (by simp))
  | applyClock function kind =>
    dsimp only [clockLines]
    simp only [String.append_assoc]
    cases kind with
    | rotate => exact filterMap_other (contextCall?_append 'l' (by decide) (by simp))
    | scale => exact filterMap_other (contextCall?_append 'l' (by decide) (by simp))
    | alpha => exact filterMap_other (contextCall?_append 'l' (by decide) (by simp))
    | path => rfl
  | paint function =>
    refine filterMap_other ?_
    rw [← String.append_assoc]
    exact contextCall?_of_mem 'p' (by decide) (Or.inl (by simp))
  | markStyle => exact filterMap_other (contextCall?_append 'f' (by decide) (by simp))
  | mark => exact filterMap_other (contextCall?_append 'f' (by decide) (by simp))

end Statements

/-! ### What is painted -/

namespace FrameCall

/-- A function that is brought to its place is painted between keeping the state and going back to
it, and so are the marks of origins. -/
theorem balanced_body (marks : Bool) (call : FrameCall) :
    Balanced ((call.body marks).filterMap FrameStmt.delimiter?) := by
  -- of what comes before the marks, nothing keeps a state
  have hplace : (call.approach.body ++ call.clocks.map (FrameStmt.applyClock call.function) ++
      [FrameStmt.paint call.function]).filterMap FrameStmt.delimiter? = [] := by
    have happroach : call.approach.body.filterMap FrameStmt.delimiter? = [] := by
      cases call.approach with
      | stay => rfl
      | move offset => rfl
      | follow function orientation => cases orientation <;> rfl
    have hclocks : (call.clocks.map (FrameStmt.applyClock call.function)).filterMap
        FrameStmt.delimiter? = [] := by
      rw [List.filterMap_map]
      exact List.filterMap_eq_nil_iff.mpr fun kind _ => rfl
    rw [List.filterMap_append, List.filterMap_append, happroach, hclocks]
    rfl
  have hinner : Balanced ((call.inner marks).filterMap FrameStmt.delimiter?) := by
    rw [inner, List.filterMap_append, hplace]
    split <;> decide
  -- what is transformed is painted between a state that is kept and going back to it
  unfold body
  split
  · rw [List.filterMap_append]
    exact hinner.enclose
  · exact hinner

end FrameCall

namespace Outline

variable {o : Outline} {art : Artwork} {transform : Affine Float}

/-- Opacity is set and reset without saving the state. -/
theorem filterMap_withOpacity (opacity : Float) (body : List Stmt) :
    (withOpacity opacity body).filterMap Stmt.delimiter? = body.filterMap Stmt.delimiter? := by
  unfold withOpacity
  split
  · simp [List.filterMap_cons, Stmt.delimiter?]
  · rfl

/-- A node itself keeps no state, unless a symbol is called, and then the state is gone back to. -/
theorem balanced_paintSelf (active : Option Nat) (node : Nat) :
    Balanced ((o.paintSelf art transform active node).filterMap Stmt.delimiter?) := by
  unfold paintSelf
  cases art.kind node with
  | pluginGroup => exact .nil
  | plain =>
    -- no statement for an outline has to do with the states
    have hnone : (o.paintOutline art transform node).filterMap Stmt.delimiter? = [] := by
      rw [List.filterMap_eq_nil_iff]
      intro stmt hmem
      rcases cases_of_mem_paintOutline hmem with ⟨path, rfl⟩ | hpaint | rfl | rfl | ⟨width, rfl⟩
      · rfl
      · cases stmt <;> first | rfl | cases hpaint
      · rfl
      · rfl
      · rfl
    dsimp only
    rw [hnone]
    exact .nil
  | symbol =>
    dsimp only
    rcases o.paintSymbol_cases art transform active node with
      heq | heq | ⟨corner, scale, function, rfl | ⟨x, y, rfl⟩, heq⟩ <;>
      rw [heq]
    · exact .nil
    · exact .nil
    · exact Balanced.nil.enclose
    · exact Balanced.nil.enclose

/-- What a node and all below it save is restored. -/
theorem balanced_paintNode (active : Option Nat) (levels node : Nat) :
    Balanced ((o.paintNode art transform active levels node).filterMap Stmt.delimiter?) := by
  induction levels generalizing node with
  | zero => exact .nil
  | succ levels ih =>
    rw [paintNode_succ]
    split
    · exact .nil
    · -- the opacity is set and reset outside of all that is kept
      rw [filterMap_withOpacity, List.filterMap_append, List.filterMap_flatMap]
      exact (balanced_paintSelf active node).append (.flatMap fun child _ => ih child)

/-- The only remark is that a symbol is left out. -/
theorem eq_of_comment_mem_ownStmts {active : Option Nat} {node : Nat} {text : String}
    (h : .comment text ∈ o.ownStmts art transform active node) : text = recursionNote := by
  rcases cases_of_mem_ownStmts h with houtline | hsymbol | ⟨opacity, heq⟩ | heq
  · rcases cases_of_mem_paintOutline houtline with
      ⟨path, heq⟩ | hpaint | heq | heq | ⟨width, heq⟩
    · cases heq
    · cases hpaint
    · cases heq
    · cases heq
    · cases heq
  · rcases o.paintSymbol_cases art transform active node with
      heq | heq | ⟨corner, scale, function, rfl | ⟨x, y, rfl⟩, heq⟩ <;>
      rw [heq] at hsymbol
    · cases hsymbol
    · exact Stmt.comment.inj (List.mem_singleton.mp hsymbol)
    · simp at hsymbol
    · simp at hsymbol
  · cases heq
  · cases heq

/-- If the functions of patterns are named as they should be, all statements are ordinary. -/
theorem ordinary_of_mem_ownStmts (hnamed : ∀ p ∈ o.patterns.patterns, p.HasFunctionName)
    {active : Option Nat} {node : Nat} {stmt : Stmt}
    (h : stmt ∈ o.ownStmts art transform active node) : stmt.Ordinary := by
  cases stmt with
  | comment text => exact eq_of_comment_mem_ownStmts h
  | callSymbol function =>
    obtain ⟨handle, p, -, -, hfind, rfl⟩ := callSymbol_mem_ownStmts.mp h
    obtain ⟨n, hn⟩ := hnamed p (List.mem_of_find?_eq_some hfind)
    rw [Stmt.Ordinary, hn]
    exact (Identifier.mem_toList_candidate_symbolFunctionName p.name n).2
  | _ => trivial

end Outline

/-! ### The clock code -/

namespace Runtime

variable {ctx : String}

/-- Another line in front keeps the lines from saving and restoring. -/
theorem contextCall?_cons {cs : List Char} {lines : List String} (hcs : endsInCall cs = false)
    (h : ∀ line ∈ lines, contextCall? ctx line = none) :
    ∀ line ∈ String.ofList cs :: lines, contextCall? ctx line = none :=
  List.forall_mem_cons.mpr ⟨contextCall?_ofList hcs, h⟩

theorem contextCall?_cons_blank {lines : List String}
    (h : ∀ line ∈ lines, contextCall? ctx line = none) :
    ∀ line ∈ "" :: lines, contextCall? ctx line = none :=
  List.forall_mem_cons.mpr ⟨contextCall?_of_getLast? (by decide), h⟩

/-- No curve ends in empty parentheses. -/
theorem exists_ending_easingExpression (e : Easing) :
    ∃ front middle, easingExpression e = front ++ String.ofList middle ∧
      EndsOtherwise middle ['(', ')'] := by
  have hwhole : ∀ {text : List Char}, EndsOtherwise text ['(', ')'] →
      ∃ front middle, String.ofList text = front ++ String.ofList middle ∧
        EndsOtherwise middle ['(', ')'] :=
    fun {text} h => ⟨"", text, String.empty_append.symm, h⟩
  match e with
  | .ease .expo .easeInOut => exact ⟨_, _, rfl, by decide⟩
  | .linear | .zeroStep | .halfStep | .oneStep | .clockTick => exact hwhole (by decide)
  | .ease .sine d | .ease .quad d | .ease .cubic d | .ease .quart d | .ease .quint d
  | .ease .circ d | .ease .bounce d => cases d <;> exact hwhole (by decide)
  | .ease .expo .easeIn | .ease .expo .easeOut => exact hwhole (by decide)

/-- Easing functions neither save nor restore. -/
theorem contextCall?_easingEntry (e : Easing) :
    ∀ line ∈ easingEntry e, contextCall? ctx line = none := by
  obtain ⟨front, middle, heq, hends⟩ := exists_ending_easingExpression e
  simp only [easingEntry, List.forall_mem_cons]
  refine ⟨contextCall?_of_ending _ (by decide), contextCall?_ofList rfl, ?_,
    contextCall?_ofList rfl, nofun⟩
  rw [heq, ← String.append_assoc]
  exact contextCall?_of_semicolon _ hends

/-- Nor do the bodies of declarations. -/
theorem contextCall?_body {d : Declaration} (hd : d ∈ declarations) :
    ∀ line ∈ d.body, contextCall? ctx line = none := by
  simp only [declarations, List.mem_cons, List.not_mem_nil, or_false] at hd
  rcases hd with rfl | rfl | rfl | rfl | rfl | rfl | rfl | rfl | rfl | rfl | rfl | rfl
  pick_goal 8
  · exact List.forall_mem_append.mpr ⟨List.forall_mem_flatMap.mpr fun e _ =>
      contextCall?_easingEntry e, contextCall?_cons rfl nofun⟩
  -- the lines are gone through from the first to the last
  all_goals
    dsimp only [timingType, eventClass, clockList, clockClass, updateFunction, bounceFunction,
      splitFunction, segmentType, pathClass, cubicFunction, slopeFunction]
    repeat' first | refine contextCall?_cons_blank ?_ | refine contextCall?_cons rfl ?_
    exact nofun

/-- Nor do whole declarations. -/
theorem contextCall?_declaration {d : Declaration} (hd : d ∈ declarations) :
    ∀ line ∈ d.lines, contextCall? ctx line = none := by
  refine List.forall_mem_cons.mpr ⟨?_, contextCall?_body hd⟩
  simp only [declarations, List.mem_cons, List.not_mem_nil, or_false] at hd
  rcases hd with rfl | rfl | rfl | rfl | rfl | rfl | rfl | rfl | rfl | rfl | rfl | rfl <;>
    exact contextCall?_of_ending _ (by decide)

/-- The clock code keeps no state of a context, and goes back to none. -/
theorem contextCall?_lines : ∀ line ∈ lines, contextCall? ctx line = none := by
  intro line hline
  obtain hblank | ⟨part, hpart, hline⟩ := Text.mem_intercalate hline
  · obtain rfl := List.mem_singleton.mp hblank
    exact contextCall?_of_getLast? (by decide)
  · obtain ⟨d, hd, rfl⟩ := List.mem_map.mp hpart
    exact contextCall?_declaration hd line hline

end Runtime

end ArtCanvas
