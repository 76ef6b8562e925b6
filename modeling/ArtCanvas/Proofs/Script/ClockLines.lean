import ArtCanvas.Proofs.Script.Nesting

/-!
# Lines that have to do with clocks

The lines of a script are read for the clocks that they make, wire or start. What the context is
called is up to the user of a script, so a line is not told by how it begins alone: it has to be of
one of four forms from its beginning to its end, and no other line is, whatever the context.

* `ClockTerm`: how lines speak of clocks.
* `ClockLine.read?`: the lines that make, wire or start a clock.
* `ClockLine.read?_of_lastCall` and the lemmas around it: why other lines do not.
-/

namespace ArtCanvas

open Identifier (isWordChar EndsWord)

/-! ### Terms -/

/-- How lines speak of a clock: by a name of its own, or by that of the path it belongs to. -/
inductive ClockTerm where
  /-- A clock with a name of its own. -/
  | constant (name : String)
  /-- The clock of a path. -/
  | ofPath (path : String)
  deriving DecidableEq, Repr

namespace ClockTerm

/-- The name that has to be declared for a term. -/
def name : ClockTerm → String
  | .constant name => name
  | .ofPath path => path

/-- A term as it is written. -/
def text : ClockTerm → String
  | .constant name => name
  | .ofPath path => path ++ ".pathClock"

/-- The term that some characters are. -/
def read (cs : List Char) : ClockTerm :=
  match cs.dropSuffix? ".pathClock".toList with
  | some path => .ofPath (String.ofList path)
  | none => .constant (String.ofList cs)

/-- What is read is what is written. -/
theorem text_read (cs : List Char) : (read cs).text = String.ofList cs := by
  unfold read
  split
  next path hpath =>
    obtain ⟨ending, rfl, hending⟩ := List.dropSuffix?_eq_some_iff.mp hpath
    rw [eq_of_beq hending, String.ofList_append]
    rfl
  next => rfl

/-- A member of a clock, as in `ballClock.start`, with the clock. A clock begins with a character
of names. -/
def member? (cs : List Char) : Option (ClockTerm × String) :=
  match Text.cutLast '.' cs with
  | some (clock, member) =>
    if clock.head?.any isWordChar then some (read clock, String.ofList member) else none
  | none => none

/-- A member is what stands behind the last point. -/
theorem member?_append {clock member : List Char} (hclock : clock.head?.any isWordChar = true)
    (hmember : '.' ∉ member) :
    member? (clock ++ '.' :: member) = some (read clock, String.ofList member) := by
  have hcut : Text.cutLast '.' (clock ++ '.' :: member) = some (clock, member) :=
    Text.cutLast_eq_some_iff.mpr ⟨rfl, hmember⟩
  rw [member?, hcut]
  exact if_pos hclock

/-- A member is read off a clock, a point and a name without points. -/
theorem exists_of_member? {cs : List Char} {clock : ClockTerm} {member : String}
    (h : member? cs = some (clock, member)) :
    cs = clock.text.toList ++ '.' :: member.toList ∧ cs.head?.any isWordChar = true := by
  unfold member? at h
  split at h
  next before after hcut =>
    obtain ⟨rfl, -⟩ := Text.cutLast_eq_some_iff.mp hcut
    split at h
    next hhead =>
      cases h
      rw [text_read, String.toList_ofList, String.toList_ofList]
      refine ⟨rfl, ?_⟩
      cases before with
      | nil => cases hhead
      | cons c cs => exact hhead
    next => cases h
  next => cases h

end ClockTerm

/-! ### Readings -/

/-- What a line has to do with clocks. -/
inductive ClockLine where
  /-- A clock is made, or a path with its clock. -/
  | makes (clock : ClockTerm)
  /-- When one clock reports an event, another one is told to act. -/
  | wires (heard : ClockTerm) (event : String) (told : ClockTerm) (action : String)
  /-- A clock is started. -/
  | starts (clock : ClockTerm)
  deriving DecidableEq, Repr

/-- A character of a name, or the point between two names. -/
def isPlaceChar (c : Char) : Bool := isWordChar c || c == '.'

/-- A character that may stand between the parentheses of a call. -/
def isArgumentChar (c : Char) : Bool := c != '(' && c != ')'

namespace ClockLine

/-- What a declaration makes, from its name on. -/
def readDeclaration? (cs : List Char) : Option ClockLine :=
  let name := String.ofList (cs.takeWhile isWordChar)
  let value := cs.dropWhile isWordChar
  if value = " = new MotionPath(".toList then some (.makes (.ofPath name))
  else match value.dropPrefix? " = new Clock(".toList with
    | some arguments =>
      if arguments.dropWhile isArgumentChar = ");".toList then some (.makes (.constant name))
      else none
    | none => none

/-- What is wired by `place` if a call of `told` is given to it. -/
def readWiring? (place told : List Char) : Option ClockLine := do
  let event ← place.dropSuffix? ".on".toList
  let (heard, event) ← ClockTerm.member? event
  let (told, action) ← ClockTerm.member? told
  return .wires heard event told action

/-- What a call of `place` does, if `rest` is what stands behind that. -/
def readCall? (place rest : List Char) : Option ClockLine :=
  if rest = "();".toList then
    match ClockTerm.member? place with
    | some (clock, method) => if method = "start" then some (.starts clock) else none
    | none => none
  else match rest.dropPrefix? "(() => ".toList with
    | some body =>
      if body.dropWhile isPlaceChar = "());".toList then
        readWiring? place (body.takeWhile isPlaceChar)
      else none
    | none => none

/-- What a line has to do with clocks, if it has. -/
def read? (line : String) : Option ClockLine :=
  match line.toList.dropPrefix? "export const ".toList with
  | some rest => readDeclaration? rest
  | none => readCall? (line.toList.takeWhile isPlaceChar) (line.toList.dropWhile isPlaceChar)

/-! ### How such lines end -/

/-- How the lines end that have to do with clocks: where something is made, wired or started. -/
inductive Ends : List Char → Prop
  | path (front : List Char) : Ends (front ++ "new MotionPath(".toList)
  | clock (front : List Char) {arguments : List Char} (h : arguments.all isArgumentChar = true) :
    Ends (front ++ "new Clock(".toList ++ arguments ++ ");".toList)
  | wiring (front : List Char) {told : List Char} (h : told.all isPlaceChar = true) :
    Ends (front ++ "(() => ".toList ++ told ++ "());".toList)
  | start (front : List Char) : Ends (front ++ ".start();".toList)

/-- What a prefix is taken off starts with it. -/
theorem dropPrefix?_eq_some {cs front rest : List Char} (h : cs.dropPrefix? front = some rest) :
    cs = front ++ rest := by
  obtain ⟨front', rfl, heq⟩ := List.dropPrefix?_eq_some_iff.mp h
  rw [eq_of_beq heq]

/-- Declarations end as lines about clocks do. -/
theorem ends_of_readDeclaration? {cs : List Char} {x : ClockLine} (front : List Char)
    (h : readDeclaration? cs = some x) : Ends (front ++ cs) := by
  -- behind the name stands what is made
  rw [← List.takeWhile_append_dropWhile (p := isWordChar) (l := cs)]
  unfold readDeclaration? at h
  dsimp only at h
  split at h
  next hvalue =>
    rw [hvalue]
    simpa using Ends.path (front ++ cs.takeWhile isWordChar ++ " = ".toList)
  next =>
    split at h
    next arguments hvalue =>
      split at h
      next hend =>
        rw [dropPrefix?_eq_some hvalue,
          ← List.takeWhile_append_dropWhile (p := isArgumentChar) (l := arguments), hend]
        have hends := Ends.clock (front ++ cs.takeWhile isWordChar ++ " = ".toList)
          (List.all_takeWhile (p := isArgumentChar) (l := arguments))
        simpa using hends
      next => cases h
    next => cases h

/-- So do calls, which begin with a word besides. -/
theorem ends_of_readCall? {place rest : List Char} {x : ClockLine}
    (h : readCall? place rest = some x) :
    Ends (place ++ rest) ∧ (place ++ rest).head?.any isWordChar = true := by
  -- what stands in front of the last part of a call begins the line
  have hhead : ∀ {cs : List Char} {more : List Char}, cs.head?.any isWordChar = true →
      (cs ++ more).head?.any isWordChar = true := by
    intro cs more hcs
    cases cs with
    | nil => cases hcs
    | cons c cs => exact hcs
  unfold readCall? at h
  split at h
  next hrest =>
    split at h
    next clock method hmember =>
      split at h
      next hstart =>
        obtain ⟨rfl, hword⟩ := ClockTerm.exists_of_member? hmember
        refine ⟨?_, hhead hword⟩
        rw [hrest, hstart]
        simpa using Ends.start clock.text.toList
      next => cases h
    next => cases h
  next =>
    split at h
    next body hrest =>
      split at h
      next hend =>
        obtain ⟨event, hevent, hmember⟩ := Option.bind_eq_some_iff.mp h
        obtain ⟨⟨heard, name⟩, hmember, -⟩ := Option.bind_eq_some_iff.mp hmember
        obtain ⟨ending, rfl, -⟩ := List.dropSuffix?_eq_some_iff.mp hevent
        refine ⟨?_, hhead (hhead (ClockTerm.exists_of_member? hmember).2)⟩
        rw [dropPrefix?_eq_some hrest,
          ← List.takeWhile_append_dropWhile (p := isPlaceChar) (l := body), hend]
        have hends := Ends.wiring (event ++ ending)
          (List.all_takeWhile (p := isPlaceChar) (l := body))
        simpa using hends
      next => cases h
    next => cases h

/-- A line that has to do with clocks ends as such lines do, and begins with a character of
names. -/
theorem ends_of_read? {line : String} {x : ClockLine} (h : read? line = some x) :
    Ends line.toList ∧ line.toList.head?.any isWordChar = true := by
  unfold read? at h
  split at h
  next rest hrest =>
    rw [dropPrefix?_eq_some hrest]
    exact ⟨ends_of_readDeclaration? _ h, rfl⟩
  next =>
    have hends := ends_of_readCall? h
    rwa [List.takeWhile_append_dropWhile] at hends

/-- What stands in front of the last opening parenthesis of such a line, and what behind it. -/
inductive LastCall : List Char → List Char → Prop
  | path (front : List Char) : LastCall (front ++ "new MotionPath".toList) []
  | clock (front : List Char) {arguments : List Char} (h : arguments.all isArgumentChar = true) :
    LastCall (front ++ "new Clock".toList) (arguments ++ ");".toList)
  | wiring (front : List Char) {told : List Char} (h : told.all isPlaceChar = true) :
    LastCall (front ++ "> ".toList ++ told) "));".toList
  | start (front : List Char) : LastCall (front ++ ".start".toList) ");".toList

/-- Arguments have no opening bracket. -/
theorem not_mem_of_all_isArgumentChar {cs : List Char} (h : cs.all isArgumentChar = true) :
    '(' ∉ cs := fun hmem => absurd (List.all_eq_true.mp h _ hmem) (by decide)

/-- A line about clocks ends in a call of one of its methods. -/
theorem Ends.exists_lastCall {cs : List Char} (h : Ends cs) :
    ∃ before after, Text.cutLast '(' cs = some (before, after) ∧ LastCall before after := by
  simp only [Text.cutLast_eq_some_iff]
  cases h with
  | path front => exact ⟨_, _, ⟨by simp, by simp⟩, .path front⟩
  | @clock front arguments h =>
    have hfree := not_mem_of_all_isArgumentChar h
    exact ⟨_, _, ⟨by simp, by simp [hfree]⟩, .clock front h⟩
  | @wiring front told h => exact ⟨_, _, ⟨by simp, by simp⟩, .wiring (front ++ "(() =".toList) h⟩
  | start front => exact ⟨_, _, ⟨by simp, by simp⟩, .start front⟩

/-! ### Lines that have nothing to do with clocks -/

/-- A line that does not begin with a character of names has nothing to do with clocks. -/
theorem read?_of_endsWord {line : String} (h : EndsWord line) : read? line = none := by
  rw [Option.eq_none_iff_forall_ne_some]
  intro x hx
  obtain ⟨-, hhead⟩ := ends_of_read? hx
  cases hline : line.toList with
  | nil =>
    rw [hline] at hhead
    cases hhead
  | cons c cs =>
    rw [hline, List.head?_cons, Option.any_some, h c cs hline] at hhead
    cases hhead

/-- Neither has a line with another end. -/
theorem read?_of_not_ends {line : String} (h : ¬ Ends line.toList) : read? line = none :=
  Option.eq_none_iff_forall_ne_some.mpr fun _ hx => h (ends_of_read? hx).1

/-- Such a line ends in a semicolon with a parenthesis before it, or in a parenthesis. -/
theorem Ends.suffix {cs : List Char} (h : Ends cs) : ");".toList <:+ cs ∨ "(".toList <:+ cs := by
  cases h with
  | path front => exact Or.inr ⟨front ++ "new MotionPath".toList, by simp⟩
  | @clock front arguments h => exact Or.inl ⟨front ++ "new Clock(".toList ++ arguments, by simp⟩
  | @wiring front told h => exact Or.inl ⟨front ++ "(() => ".toList ++ told ++ "()".toList, by simp⟩
  | start front => exact Or.inl ⟨front ++ ".start(".toList, by simp⟩

/-- Neither has a line with another ending. -/
theorem read?_of_ending (front : String) {ending : List Char}
    (h : EndsOtherwise ending ");".toList ∧ EndsOtherwise ending "(".toList) :
    read? (front ++ String.ofList ending) = none := by
  refine read?_of_not_ends fun hends => ?_
  rw [String.toList_append, String.toList_ofList] at hends
  rcases hends.suffix with ⟨before, heq⟩ | ⟨before, heq⟩
  · exact h.1.append_ne _ _ heq.symm
  · exact h.2.append_ne _ _ heq.symm

/-- Neither has a line that has a semicolon at its end, but no parenthesis before that. -/
theorem read?_of_semicolon (front : String) {middle : List Char} (h : EndsOtherwise middle [')']) :
    read? (front ++ String.ofList middle ++ ";") = none := by
  refine read?_of_not_ends fun hends => ?_
  rw [String.toList_append, String.toList_append, String.toList_ofList] at hends
  rcases hends.suffix with ⟨before, heq⟩ | ⟨before, heq⟩
  · -- without the semicolon the line would still end in the parenthesis
    have hsame : before ++ [')'] = front.toList ++ middle := by
      refine (List.append_left_inj ";".toList).mp ?_
      rw [← heq]
      simp
    exact h.append_ne _ _ hsame.symm
  · have hother : EndsOtherwise ";".toList "(".toList := by decide
    exact hother.append_ne _ _ heq.symm

/-- A line has nothing to do with clocks if the last thing that it calls has not. -/
theorem read?_of_lastCall {line : String} {before after : List Char}
    (hline : line.toList = before ++ '(' :: after) (hafter : '(' ∉ after)
    (h : ¬ LastCall before after) : read? line = none := by
  refine read?_of_not_ends fun hends => h ?_
  obtain ⟨before', after', hcut, hlast⟩ := hends.exists_lastCall
  rw [Text.cutLast_eq_some_iff.mpr ⟨hline, hafter⟩] at hcut
  cases hcut
  exact hlast

/-- What is called last is no clock that is made or started, and no wiring ends the line. -/
theorem not_lastCall (front : List Char) {method after : List Char}
    (hclock : EndsOtherwise method "new Clock".toList)
    (hstart : EndsOtherwise method ".start".toList) (hpath : after ≠ [])
    (hwiring : after = "));".toList → ∀ front' told : List Char, told.all isPlaceChar = true →
      front ++ method ≠ front' ++ "> ".toList ++ told) :
    ¬ LastCall (front ++ method) after := by
  intro h
  generalize hbefore : front ++ method = before at h
  cases h with
  | path => exact hpath rfl
  | clock => exact hclock.append_ne _ _ hbefore
  | wiring front' htold => exact hwiring rfl front' _ htold hbefore
  | start => exact hstart.append_ne _ _ hbefore

/-- The characters end in a call that has nothing to do with clocks. -/
def endsInOtherCall (line : List Char) : Bool :=
  match Text.cutLast '(' line with
  | some (method, after) => decide (EndsOtherwise method "new Clock".toList ∧
      EndsOtherwise method ".start".toList ∧ after ≠ [] ∧ after ≠ "));".toList)
  | none => false

/-- A line that ends in another call is not about clocks, whatever stands in front. -/
theorem read?_of_endsInOtherCall (front : String) {ending : List Char}
    (h : endsInOtherCall ending = true) : read? (front ++ String.ofList ending) = none := by
  unfold endsInOtherCall at h
  split at h
  next method after hcut =>
    obtain ⟨rfl, hafter⟩ := Text.cutLast_eq_some_iff.mp hcut
    obtain ⟨hclock, hstart, hpath, hwiring⟩ := of_decide_eq_true h
    have hline : (front ++ String.ofList (method ++ '(' :: after)).toList =
        (front.toList ++ method) ++ '(' :: after := by simp
    exact read?_of_lastCall hline hafter
      (not_lastCall _ hclock hstart hpath fun heq => absurd heq hwiring)
  next => cases h

/-- A method is called with some arguments, and has nothing to do with clocks. -/
theorem read?_of_call (front : String) {opening : List Char} {arguments : String}
    (hopening : EndsOtherwise opening "new Clock(".toList ∧
      EndsOtherwise opening ".start(".toList ∧ opening.getLast? = some '(')
    (harguments : arguments.toList.all isArgumentChar = true) :
    read? (front ++ String.ofList opening ++ arguments ++ ");") = none := by
  obtain ⟨hclock, hstart, hlast⟩ := hopening
  obtain ⟨method, rfl⟩ := List.getLast?_eq_some_iff.mp hlast
  have hline : (front ++ String.ofList (method ++ ['(']) ++ arguments ++ ");").toList =
      (front.toList ++ method) ++ '(' :: (arguments.toList ++ ");".toList) := by simp
  have hafter : '(' ∉ arguments.toList ++ ");".toList := by
    simpa using not_mem_of_all_isArgumentChar harguments
  have hends : ∀ {call : List Char}, EndsOtherwise (method ++ ['(']) (call ++ ['(']) →
      EndsOtherwise method call := fun h =>
    ⟨fun ⟨before, heq⟩ => h.1 ⟨before, by rw [← List.append_assoc, heq]⟩,
      fun ⟨before, heq⟩ => h.2 ⟨before, by rw [← List.append_assoc, heq]⟩⟩
  refine read?_of_lastCall hline hafter
    (not_lastCall _ (hends hclock) (hends hstart) (by simp) fun heq => ?_)
  -- the only argument would be a parenthesis
  have hparenthesis : arguments.toList = [')'] :=
    (List.append_left_inj ");".toList).mp (heq.trans (by rfl))
  rw [hparenthesis] at harguments
  cases harguments

/-- Texts that end in characters of one kind are the same if their ends are, from the last character
of another kind on. -/
theorem append_cons_inj {p : Char → Bool} {front front' rest rest' : List Char} {c c' : Char}
    (hrest : rest.all p = true) (hrest' : rest'.all p = true) (hc : p c = false)
    (hc' : p c' = false) (h : front ++ c :: rest = front' ++ c' :: rest') :
    front = front' ∧ c = c' := by
  have hnot : ∀ {front rest rest' : List Char} {c d : Char}, rest.all p = true → p d = false →
      rest ≠ front ++ d :: rest' := by
    rintro front rest rest' c d hall hd rfl
    have hmem := List.all_eq_true.mp hall d (by simp)
    rw [hd] at hmem
    cases hmem
  -- one of the fronts is longer, and what it has more would stand in the other rest
  rcases List.append_eq_append_iff.mp h with ⟨between, rfl, heq⟩ | ⟨between, rfl, heq⟩
  · cases between with
    | nil => exact ⟨(List.append_nil _).symm, (List.cons.inj heq).1⟩
    | cons d between => exact absurd (List.cons.inj heq).2 (hnot (c := c) hrest hc')
  · cases between with
    | nil => exact ⟨List.append_nil _, (List.cons.inj heq).1.symm⟩
    | cons d between => exact absurd (List.cons.inj heq).2 (hnot (c := c) hrest' hc)

/-- What is in the parentheses of a wiring ends in a name, with a space in front of it. -/
theorem ne_wiring {front told : List Char} {c c' : Char} (hplace : told.all isPlaceChar = true)
    (hc : isPlaceChar c' = false) (h : ¬ (c' = ' ' ∧ c = '>')) (front' told' : List Char)
    (htold' : told'.all isPlaceChar = true) :
    front ++ c :: c' :: told ≠ front' ++ "> ".toList ++ told' := by
  intro heq
  have hline : (front ++ [c]) ++ c' :: told = (front' ++ ['>']) ++ ' ' :: told' := by
    simpa using heq
  obtain ⟨hfront, hspace⟩ := append_cons_inj hplace htold' hc rfl hline
  exact h ⟨hspace, (List.append_inj' hfront rfl).2 |> List.singleton_inj.mp⟩

/-- Neither has a line in which the last call is one of a member, in the parentheses of another
call. -/
theorem read?_of_member {line : String} {front place member after : List Char} {c c' : Char}
    (hline : line.toList = front ++ c :: c' :: place ++ member ++ '(' :: after)
    (hplace : (place ++ member).all isPlaceChar = true) (hc : isPlaceChar c' = false)
    (hspace : ¬ (c' = ' ' ∧ c = '>')) (hafter : after ≠ [] ∧ '(' ∉ after)
    (hclock : EndsOtherwise member "new Clock".toList)
    (hstart : EndsOtherwise member ".start".toList) : read? line = none := by
  refine read?_of_lastCall hline hafter.2 (not_lastCall _ hclock hstart hafter.1 ?_)
  intro _ front' told htold
  have hne : front ++ c :: c' :: (place ++ member) ≠ front' ++ "> ".toList ++ told :=
    ne_wiring hplace hc hspace front' told htold
  rwa [← List.cons_append, ← List.cons_append, ← List.append_assoc] at hne

/-- A line that begins with a place is read from its end on. -/
theorem read?_append {place rest : String} (hplace : place.toList.all isPlaceChar = true)
    (hrest : ∀ c, rest.toList.head? = some c → isPlaceChar c = false)
    (hexport : rest.toList.head? = some ' ' → place ≠ "export") :
    read? (place ++ rest) = readCall? place.toList rest.toList := by
  have htake : (place ++ rest).toList.takeWhile isPlaceChar = place.toList := by
    rw [String.toList_append, List.takeWhile_append_of_pos (List.all_eq_true.mp hplace)]
    cases hchars : rest.toList with
    | nil => rw [List.takeWhile_nil, List.append_nil]
    | cons c cs =>
      rw [List.takeWhile_cons_of_neg (by simp [hrest c (by rw [hchars]; rfl)]), List.append_nil]
  have hdrop : (place ++ rest).toList.dropWhile isPlaceChar = rest.toList := by
    have hwhole := List.takeWhile_append_dropWhile (p := isPlaceChar) (l := (place ++ rest).toList)
    rw [htake, String.toList_append] at hwhole
    rw [String.toList_append]
    exact List.append_cancel_left hwhole
  unfold read?
  split
  next more hmore =>
    -- a declaration begins with another place
    rw [dropPrefix?_eq_some hmore] at htake hdrop
    refine absurd (String.toList_inj.mp htake.symm) (hexport ?_)
    rw [← hdrop]
    rfl
  next => rw [htake, hdrop]

/-- A line that begins with a place which is not called has nothing to do with clocks. -/
theorem read?_of_not_called {place rest : String} {c : Char}
    (hplace : place.toList.all isPlaceChar = true) (hrest : rest.toList.head? = some c)
    (hc : isPlaceChar c = false) (hcall : c ≠ '(') (hexport : place ≠ "export") :
    read? (place ++ rest) = none := by
  have hstart : rest.toList ≠ "();".toList := by
    intro heq
    rw [heq] at hrest
    exact hcall (Option.some.inj hrest).symm
  have hwiring : rest.toList.dropPrefix? "(() => ".toList = none := by
    rw [Option.eq_none_iff_forall_ne_some]
    intro body hbody
    rw [dropPrefix?_eq_some hbody] at hrest
    exact hcall (Option.some.inj hrest).symm
  -- so the line is neither a start nor a wiring, and no declaration either
  rw [read?_append hplace (by rw [hrest]; rintro d ⟨⟩; exact hc) (fun _ => hexport), readCall?,
    if_neg hstart, hwiring]

/-- Neither has a line in which another place is called than one that starts a clock or listens to
one. -/
theorem read?_of_called {place rest : String} (hplace : place.toList.all isPlaceChar = true)
    (hrest : rest.toList.head? = some '(') (hstart : ¬ ".start".toList <:+ place.toList)
    (hon : ¬ ".on".toList <:+ place.toList) : read? (place ++ rest) = none := by
  -- a reading would tell that the place ends in a method of a clock
  rw [read?_append hplace (by rw [hrest]; rintro c ⟨⟩; rfl) (by rw [hrest]; rintro ⟨⟩),
    Option.eq_none_iff_forall_ne_some]
  intro x hx
  unfold readCall? at hx
  split at hx
  next =>
    split at hx
    next clock method hmember =>
      split at hx
      next hmethod =>
        refine hstart ⟨clock.text.toList, ?_⟩
        rw [(ClockTerm.exists_of_member? hmember).1, hmethod]
        rfl
      next => cases hx
    next => cases hx
  next =>
    split at hx
    next body hbody =>
      split at hx
      next =>
        obtain ⟨event, hevent, -⟩ := Option.bind_eq_some_iff.mp hx
        obtain ⟨ending, heq, hending⟩ := List.dropSuffix?_eq_some_iff.mp hevent
        exact hon ⟨event, by rw [heq, eq_of_beq hending]⟩
      next => cases hx
    next => cases hx

/-- The characters begin with a place that is not called, or is no clock's to be called. -/
def beginsOtherwise (line : List Char) : Bool :=
  let place := line.takeWhile isPlaceChar
  match line.dropWhile isPlaceChar with
  | [] => false
  | c :: _ =>
    if c = '(' then !".start".toList.isSuffixOf place && !".on".toList.isSuffixOf place
    else place != "export".toList

/-- A line that begins otherwise is not about clocks, whatever comes after. -/
theorem read?_of_beginsOtherwise {front : List Char} (h : beginsOtherwise front = true)
    (rest : String) : read? (String.ofList front ++ rest) = none := by
  unfold beginsOtherwise at h
  dsimp only at h
  have hplace : (String.ofList (front.takeWhile isPlaceChar)).toList.all isPlaceChar = true := by
    rw [String.toList_ofList]
    exact List.all_takeWhile
  split at h
  next => cases h
  next c cs hdrop =>
    have hc : isPlaceChar c = false := by
      have hhead := List.head?_dropWhile_not isPlaceChar front
      rw [hdrop] at hhead
      simpa using hhead
    -- the line is a place, and then a character that no place has
    have hline : String.ofList front ++ rest =
        String.ofList (front.takeWhile isPlaceChar) ++ (String.ofList (c :: cs) ++ rest) := by
      rw [← String.append_assoc, ← String.ofList_append, ← hdrop,
        List.takeWhile_append_dropWhile]
    have hrest : (String.ofList (c :: cs) ++ rest).toList.head? = some c := by
      rw [String.toList_append, String.toList_ofList]
      rfl
    rw [hline]
    split at h
    next hcall =>
      simp only [Bool.and_eq_true, Bool.not_eq_true', Bool.eq_false_iff, ne_eq,
        List.isSuffixOf_iff_suffix] at h
      have hchars := String.toList_ofList (l := front.takeWhile isPlaceChar)
      exact read?_of_called hplace (hcall ▸ hrest) (fun hsuffix => h.1 (hchars ▸ hsuffix))
        (fun hsuffix => h.2 (hchars ▸ hsuffix))
    next hcall =>
      refine read?_of_not_called hplace hrest hc hcall fun heq => ?_
      rw [← heq, String.toList_ofList] at h
      simp at h

/-! ### Arguments of calls -/

/-- Characters that are no brackets may stand in arguments. -/
theorem isArgumentChar_of_ne {p : Char → Bool} (hopening : p '(' = false) (hclosing : p ')' = false)
    {c : Char} (h : p c = true) : isArgumentChar c = true := by
  have hne : ∀ d, p d = false → c ≠ d := by
    rintro d hd rfl
    rw [hd] at h
    cases h
  rw [isArgumentChar, bne_iff_ne.mpr (hne _ hopening), bne_iff_ne.mpr (hne _ hclosing)]
  rfl

/-- Places may stand in arguments. -/
theorem all_isArgumentChar_of_place {cs : List Char} (h : cs.all isPlaceChar = true) :
    cs.all isArgumentChar = true :=
  List.all_eq_true.mpr fun c hc =>
    isArgumentChar_of_ne (p := isPlaceChar) rfl rfl (List.all_eq_true.mp h c hc)

/-- Numbers may stand in arguments. -/
theorem all_isArgumentChar_of_number {cs : List Char}
    (h : ∀ c ∈ cs, Decimal.isNumberChar c = true) : cs.all isArgumentChar = true :=
  List.all_eq_true.mpr fun c hc =>
    isArgumentChar_of_ne (p := Decimal.isNumberChar) rfl rfl (h c hc)

/-- So may lists of what may stand there. -/
theorem all_isArgumentChar_intercalate {texts : List String}
    (h : ∀ text ∈ texts, text.toList.all isArgumentChar = true) :
    (", ".intercalate texts).toList.all isArgumentChar = true := by
  rw [String.toList_intercalate, List.all_eq_true]
  intro c hc
  rcases Text.mem_intercalate hc with hcomma | ⟨part, hpart, hc⟩
  · have hall : ", ".toList.all isArgumentChar = true := by decide
    exact List.all_eq_true.mp hall c hcomma
  · obtain ⟨text, htext, rfl⟩ := List.mem_map.mp hpart
    exact List.all_eq_true.mp (h text htext) c hc

/-- So may lists of coordinates. -/
theorem all_isArgumentChar_coordinates (xs : List Float) :
    (coordinates xs).toList.all isArgumentChar = true :=
  all_isArgumentChar_intercalate (List.forall_mem_map.mpr fun x _ =>
    all_isArgumentChar_of_number (Decimal.all_coordinate x))

/-- So may numbers with all their digits. -/
theorem all_isArgumentChar_exactNumber (x : Float) :
    (exactNumber x).toList.all isArgumentChar = true := by
  unfold exactNumber
  split
  next hfinite => exact all_isArgumentChar_of_number (Decimal.all_plain hfinite)
  next => decide

/-- No parameter of a clock has a parenthesis in it. -/
theorem exists_literal_eq (c : Clock Float) :
    ∃ arguments : String, c.literal = "new Clock(" ++ arguments ++ ")" ∧
      arguments.toList.all isArgumentChar = true := by
  have hsign : (toString c.direction.sign).toList.all isArgumentChar = true := by
    cases c.direction <;> decide
  have hreverses : (toString c.reverses).toList.all isArgumentChar = true := by
    cases c.reverses <;> decide
  have hiterations : (toString c.iterations).toList.all isArgumentChar = true :=
    all_isArgumentChar_of_number fun _ hc =>
      Decimal.isNumberChar_of_isDigit (Identifier.isDigit_of_mem_repr hc)
  have heasing : ("timing." ++ c.easing.name).toList.all isArgumentChar = true := by
    rw [String.toList_append, List.all_append]
    cases c.easing with
    | ease curve shape => cases curve <;> cases shape <;> decide
    | linear | zeroStep | halfStep | oneStep | clockTick => decide
  -- each of the arguments is a number, a word, or a place
  refine ⟨_, rfl, all_isArgumentChar_intercalate ?_⟩
  simp only [List.forall_mem_cons]
  exact ⟨all_isArgumentChar_exactNumber _, all_isArgumentChar_exactNumber _, hsign, hreverses,
    hiterations, heasing, all_isArgumentChar_exactNumber _, all_isArgumentChar_exactNumber _,
    all_isArgumentChar_exactNumber _, nofun⟩

/-! ### Lines that make, wire and start clocks -/

/-- Words are places. -/
theorem all_isPlaceChar_of_word {cs : List Char} (h : cs.all isWordChar = true) :
    cs.all isPlaceChar = true :=
  List.all_eq_true.mpr fun c hc => by rw [isPlaceChar, List.all_eq_true.mp h c hc, Bool.true_or]

/-- A declaration is read for its name and its value. -/
theorem read?_export {name value : String} (hname : name.toList.all isWordChar = true)
    (hvalue : EndsWord value) :
    read? ("export const " ++ (name ++ value)) =
      if value = " = new MotionPath(" then some (.makes (.ofPath name))
      else match value.toList.dropPrefix? " = new Clock(".toList with
        | some arguments =>
          if arguments.dropWhile isArgumentChar = ");".toList then some (.makes (.constant name))
          else none
        | none => none := by
  have hprefix : ("export const " ++ (name ++ value)).toList.dropPrefix? "export const ".toList =
      some (name ++ value).toList := by
    rw [String.toList_append]
    exact List.dropPrefix?_append_of_beq _ BEq.rfl
  -- the name ends where the value starts
  have htake := Identifier.takeWhile_word hname hvalue
  have hdrop : (name.toList ++ value.toList).dropWhile isWordChar = value.toList := by
    have hwhole := List.takeWhile_append_dropWhile (p := isWordChar)
      (l := name.toList ++ value.toList)
    rw [htake] at hwhole
    exact List.append_cancel_left hwhole
  rw [read?, hprefix]
  dsimp only [readDeclaration?]
  rw [String.toList_append, htake, hdrop, String.ofList_toList]
  simp only [String.toList_inj]

/-- The line that opens a path makes the path. -/
theorem read?_opening {o : PathObject} (h : Identifier.IsName o.function) :
    read? o.opening = some (.makes (.ofPath (Identifier.escape o.function))) := by
  rw [PathObject.opening, String.append_assoc,
    read?_export h.all_escape (Identifier.endsWord_ofList rfl), if_pos rfl]

/-- The line that declares a clock makes it. -/
theorem read?_declaration {o : ClockObject} (h : Identifier.IsName o.function) :
    read? o.declaration = some (.makes (.constant (drawClockName o.function o.clock.kind))) := by
  obtain ⟨arguments, hliteral, hall⟩ := exists_literal_eq o.clock
  have hvalue : " = new Clock(" ++ arguments ++ ");" ≠ " = new MotionPath(" := fun heq =>
    absurd (congrArg (fun text => text.toList.take 8) heq) (by simp)
  have hprefix : (" = new Clock(" ++ arguments ++ ");").toList.dropPrefix? " = new Clock(".toList =
      some (arguments.toList ++ ");".toList) := by
    rw [String.append_assoc, String.toList_append, String.toList_append]
    exact List.dropPrefix?_append_of_beq _ BEq.rfl
  have hline : o.declaration = "export const " ++ (drawClockName o.function o.clock.kind ++
      (" = new Clock(" ++ arguments ++ ");")) := by
    rw [ClockObject.declaration, hliteral]
    simp only [String.append_assoc]
    rfl
  -- between the brackets there are only arguments, so the call ends at the last bracket
  rw [hline, read?_export (h.append_ending o.clock.kind).word
    (by rw [String.append_assoc]; exact Identifier.endsWord_append rfl _), if_neg hvalue, hprefix]
  dsimp only
  rw [List.dropWhile_append_of_pos (List.all_eq_true.mp hall)]
  rfl

end ClockLine

namespace ClockRef

/-- The term for a clock. -/
def term : ClockRef → ClockTerm
  | .ofPath function => .ofPath (Identifier.escape function)
  | .ofDraw function kind => .constant (drawClockName function kind)

variable {r : ClockRef}

/-- The text of a clock is read as its term, as no clock of a draw function is written like one of a
path. -/
theorem read_text (r : ClockRef) : ClockTerm.read r.text.toList = r.term := by
  cases r with
  | ofPath function =>
    have hpath : (ClockRef.ofPath function).text.toList.dropSuffix? ".pathClock".toList =
        some (Identifier.escape function).toList :=
      List.dropSuffix?_eq_some_iff.mpr ⟨_, String.toList_append, BEq.rfl⟩
    rw [ClockTerm.read, hpath]
    exact congrArg _ String.ofList_toList
  | ofDraw function kind =>
    have hending : EndsOtherwise kind.ending.toList ".pathClock".toList := by
      cases kind <;> decide
    -- no clock of a draw function ends as that of a path
    have hnone : (drawClockName function kind).toList.dropSuffix? ".pathClock".toList = none := by
      rw [Option.eq_none_iff_forall_ne_some]
      intro front hfront
      obtain ⟨ending, heq, hbeq⟩ := List.dropSuffix?_eq_some_iff.mp hfront
      rw [eq_of_beq hbeq, drawClockName, String.toList_append] at heq
      exact hending.append_ne _ _ heq
    rw [text, ClockTerm.read, hnone]
    exact congrArg _ String.ofList_toList

/-- A clock is written with names and points between them, and begins with a name. -/
theorem isPlace_text (h : Identifier.IsName r.function) :
    r.text.toList.all isPlaceChar = true ∧ r.text.toList.head?.any isWordChar = true := by
  have hname : ∀ {name : String}, Identifier.IsName name → ∃ c cs, name.toList = c :: cs ∧
      isWordChar c = true := by
    intro name h
    obtain ⟨c, cs, heq, -⟩ := h.first
    exact ⟨c, cs, heq, List.all_eq_true.mp h.word c (by rw [heq]; exact List.mem_cons_self)⟩
  cases r with
  | ofPath function =>
    replace h : Identifier.IsName function := h
    obtain ⟨c, cs, heq, hc⟩ := hname h
    rw [text, String.toList_append, List.all_append]
    refine ⟨?_, ?_⟩
    · rw [ClockLine.all_isPlaceChar_of_word h.all_escape]
      decide
    · -- escaping adds something at the end only
      rcases Identifier.escape_cases function with hescape | hescape <;>
        simp [hescape, String.toList_append, heq, hc]
  | ofDraw function kind =>
    have hclock : Identifier.IsName (drawClockName function kind) := h.append_ending kind
    obtain ⟨c, cs, heq, hc⟩ := hname hclock
    refine ⟨ClockLine.all_isPlaceChar_of_word hclock.word, ?_⟩
    rw [text, heq]
    exact hc

/-- A member of a clock is read as such. -/
theorem member?_text (h : Identifier.IsName r.function) {member : String}
    (hmember : '.' ∉ member.toList) :
    ClockTerm.member? (r.text ++ "." ++ member).toList = some (r.term, member) := by
  have hplace : (r.text ++ "." ++ member).toList = r.text.toList ++ '.' :: member.toList := by simp
  rw [hplace, ClockTerm.member?_append (isPlace_text h).2 hmember, read_text, String.ofList_toList]

/-- A member of a clock is written with names and points between them. -/
theorem isPlace_member (h : Identifier.IsName r.function) {member : String}
    (hmember : member.toList.all isWordChar = true) :
    (r.text ++ "." ++ member).toList.all isPlaceChar = true := by
  rw [String.toList_append, String.toList_append, List.all_append, List.all_append,
    (isPlace_text h).1, ClockLine.all_isPlaceChar_of_word hmember]
  decide

/-- The line that starts a clock is read as such. -/
theorem read?_startLine (h : Identifier.IsName r.function) :
    ClockLine.read? r.startLine = some (.starts r.term) := by
  have hline : r.startLine = (r.text ++ "." ++ "start") ++ "();" := by
    rw [startLine, String.append_assoc, String.append_assoc]
    rfl
  -- a place with a point in it is not the keyword
  have hexport : r.text ++ "." ++ "start" ≠ "export" := fun heq =>
    absurd (congrArg (fun text => '.' ∈ text.toList) heq) (by simp)
  rw [hline, ClockLine.read?_append (isPlace_member h (by decide)) (by rintro c ⟨⟩; rfl)
    (fun _ => hexport), ClockLine.readCall?, if_pos rfl, member?_text h (by decide)]
  exact if_pos rfl

end ClockRef

/-- Where a member of a clock is told to a member of another one, a wiring is read. -/
theorem ClockLine.read?_wiring {heard told event action : String} {clock clock' : ClockTerm}
    (hheard : heard.toList.all isPlaceChar = true) (htold : told.toList.all isPlaceChar = true)
    (hevent : ClockTerm.member? heard.toList = some (clock, event))
    (haction : ClockTerm.member? told.toList = some (clock', action)) :
    read? ((heard ++ ".on") ++ ("(() => " ++ told ++ "());")) =
      some (.wires clock event clock' action) := by
  have hplace : (heard ++ ".on").toList.all isPlaceChar = true := by
    rw [String.toList_append, List.all_append, hheard]
    decide
  have hexport : heard ++ ".on" ≠ "export" := fun heq =>
    absurd (congrArg (fun text => '.' ∈ text.toList) heq) (by simp)
  have hon : (heard ++ ".on").toList.dropSuffix? ".on".toList = some heard.toList :=
    List.dropSuffix?_eq_some_iff.mpr ⟨_, String.toList_append, BEq.rfl⟩
  have hrest : ("(() => " ++ told ++ "());").toList.dropPrefix? "(() => ".toList =
      some (told.toList ++ "());".toList) := by
    rw [String.append_assoc, String.toList_append, String.toList_append]
    exact List.dropPrefix?_append_of_beq _ BEq.rfl
  have hcall : ("(() => " ++ told ++ "());").toList ≠ "();".toList := by simp
  have htaken := List.all_eq_true.mp htold
  have hend : "());".toList.dropWhile isPlaceChar = "());".toList ∧
      "());".toList.takeWhile isPlaceChar = [] := ⟨rfl, rfl⟩
  -- the line is a call, and the place that is told ends where its own call begins
  rw [read?_append hplace (by simp [isPlaceChar, isWordChar]) (fun _ => hexport), readCall?,
    if_neg hcall, hrest]
  dsimp only
  rw [List.dropWhile_append_of_pos htaken, if_pos hend.1, List.takeWhile_append_of_pos htaken,
    hend.2, List.append_nil, readWiring?, hon]
  dsimp only [Option.bind_eq_bind, Option.bind_some]
  rw [hevent]
  dsimp only [Option.bind_some]
  rw [haction]
  rfl

/-- The line of a wiring is read as such. -/
theorem Wiring.read?_line {w : Wiring} (hsource : Identifier.IsName w.source.function)
    (htarget : Identifier.IsName w.target.function) :
    ClockLine.read? w.line = some (.wires w.source.term w.event.scriptName w.target.term
      w.action.scriptName) := by
  have hevent : w.event.scriptName.toList.all isWordChar = true := by cases w.event <;> decide
  have haction : w.action.scriptName.toList.all isWordChar = true := by cases w.action <;> decide
  -- the line is cut behind the place that is called
  have hparts : ".on(() => " = ".on" ++ "(() => " := rfl
  have hline : w.line = (w.source.text ++ "." ++ w.event.scriptName ++ ".on") ++
      ("(() => " ++ (w.target.text ++ "." ++ w.action.scriptName) ++ "());") := by
    simp only [Wiring.line, hparts, String.append_assoc]
  rw [hline]
  exact ClockLine.read?_wiring (ClockRef.isPlace_member hsource hevent)
    (ClockRef.isPlace_member htarget haction)
    (ClockRef.member?_text hsource (Text.not_mem_of_all_isWordChar rfl hevent))
    (ClockRef.member?_text htarget (Text.not_mem_of_all_isWordChar rfl haction))

end ArtCanvas
