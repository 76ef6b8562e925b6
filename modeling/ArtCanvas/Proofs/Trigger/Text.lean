import ArtCanvas.Proofs.Identifier.Reading
import ArtCanvas.Proofs.Text.Pieces
import ArtCanvas.Trigger

/-!
# Triggers as texts

The value of an option describes a trigger in words: the name of a function, one of its clocks, an
event, and what is to be done. There are many ways to write these down, and scripts have words of
their own for the last three. These words are among those that are read, so a trigger that was read
can be written down again.

* `Trigger.Refers`, `Trigger.Refers.parse?_reference`: a reference to an event of a clock is read as
  the parts that it is made of.
* `Trigger.Refers.parse?_action`: so is a reference with an action behind it.
* `Trigger.exists_of_parse?`: the parts that a trigger is read off.
* `Trigger.AsRead`, `Trigger.asRead_of_parse?`, `Trigger.AsRead.parse?_text`: the triggers that are
  read, and that they come through being written down.
* `Trigger.text_read_back`: this in full, for every trigger and for every value.
-/

namespace ArtCanvas

open Identifier (isWordChar IsRead)
open Text

section Words

/-- A word is made of letters and digits if it is once its letters are made small. -/
theorem all_isWordChar_of_lower {cs : List Char}
    (h : (cs.map Char.toLower).all Char.isAlphanum = true) : cs.all isWordChar = true := by
  refine List.all_eq_true.mpr fun c hc => Identifier.isWordChar_of_isAlphanum ?_
  have hlower : c.toLower.isAlphanum = true :=
    List.all_eq_true.mp h _ (List.mem_map_of_mem hc)
  -- a character that is neither a letter nor a digit would have stayed as it was
  by_contra hother
  rw [Identifier.toLower_eq_self hother] at hlower
  exact hother hlower

theorem ClockEvent.all_isAlphanum_of_parse? {word : String} {event : ClockEvent}
    (h : parse? word = some event) : word.toList.all Char.isAlphanum = true ∧ word ≠ "" := by
  unfold parse? at h
  split at h <;> first | (cases h; decide) | cases h

theorem ClockKind.all_isAlphanum_of_parse? {word : String} {kind : ClockKind}
    (h : parse? word = some kind) : word.toList.all Char.isAlphanum = true := by
  unfold parse? at h
  split at h <;> first | (cases h; decide) | cases h

/-- The name of a clock, with or without its ending, is a word. -/
theorem Trigger.all_isAlphanum_of_parseClock? {name : List Char} {kind : ClockKind}
    (h : parseClock? name = some kind) : name.all Char.isAlphanum = true := by
  unfold parseClock? at h
  have hword := ClockKind.all_isAlphanum_of_parse? h
  rw [String.toList_ofList] at hword
  cases hstem : dropStart? ['c', 'l', 'o', 'c', 'k'].reverse name.reverse with
  | none => rwa [hstem] at hword
  | some rest =>
    rw [hstem] at hword
    rw [dropStart?] at hstem
    split at hstem
    next hprefix =>
      -- the name is the stem with the ending behind it
      obtain ⟨more, hmore⟩ := List.isPrefixOf_iff_prefix.mp hprefix
      have hrest : rest = more := by
        rw [← Option.some.inj hstem, ← hmore, List.drop_left]
      have hstem : rest.reverse.all Char.isAlphanum = true := hword
      rw [List.all_reverse, hrest] at hstem
      rw [← List.all_reverse, ← hmore, List.all_append, hstem]
      decide
    next => cases hstem

end Words

/-- The value of an option that refers to an event of a clock of a function. -/
def Trigger.reference (function clock event : String) : String :=
  function ++ "." ++ clock ++ "." ++ event

/-- The trigger that starts a clock when a clock of some function reports an event. -/
def Trigger.starting (target : ClockKind) (function : String) (kind : ClockKind)
    (heard : ClockEvent) : Trigger :=
  { target, action := .start, sourceFunction := function, sourceClock := kind, event := heard
    source := none }

/-- The parts of a reference: the name of a function, a word for a clock, and a word for an
event. -/
structure Trigger.Refers (function clock event : String) (kind : ClockKind) (heard : ClockEvent) :
    Prop where
  function : IsRead function.toList
  clock : parseClock? (clock.toList.map Char.toLower) = some kind
  event : ClockEvent.parse? (lower event) = some heard

namespace Trigger.Refers

variable {function clock event : String} {kind : ClockKind} {heard : ClockEvent}

theorem toList_reference (function clock event : String) :
    (reference function clock event).toList =
      function.toList ++ '.' :: (clock.toList ++ '.' :: event.toList) := by
  simp [reference, String.toList_append]

theorem all_clock (h : Refers function clock event kind heard) :
    clock.toList.all isWordChar = true :=
  all_isWordChar_of_lower (all_isAlphanum_of_parseClock? h.clock)

theorem all_event (h : Refers function clock event kind heard) :
    event.toList.all isWordChar = true := by
  have hword := (ClockEvent.all_isAlphanum_of_parse? h.event).1
  rw [toList_lower] at hword
  exact all_isWordChar_of_lower hword

theorem event_ne_nil (h : Refers function clock event kind heard) : event.toList ≠ [] := by
  intro hnil
  refine (ClockEvent.all_isAlphanum_of_parse? h.event).2 ?_
  rw [lower, hnil]
  rfl

/-- Nothing is stripped from a reference. -/
theorem cleanChars_reference (h : Refers function clock event kind heard) :
    cleanChars (reference function clock event).toList =
      (reference function clock event).toList := by
  have hparts : (reference function clock event).toList =
      function.toList ++ '.' :: (clock.toList ++ ['.']) ++ event.toList := by
    rw [toList_reference]
    simp
  rw [hparts]
  exact cleanChars_of_words h.function.ne_nil h.function.all_isWordChar h.event_ne_nil h.all_event

/-- A reference ends before the first comma. -/
theorem comma_not_mem_reference (h : Refers function clock event kind heard) :
    ',' ∉ (reference function clock event).toList := by
  have hcomma : isWordChar ',' = false := by decide
  rw [toList_reference]
  simp only [List.mem_append, List.mem_cons, not_or]
  exact ⟨not_mem_of_all_isWordChar hcomma h.function.all_isWordChar, by decide,
    not_mem_of_all_isWordChar hcomma h.all_clock, by decide,
    not_mem_of_all_isWordChar hcomma h.all_event⟩

/-- A value that is cut into a reference and an action is read as the parts that these are made
of. -/
theorem parse?_of_splitAction? (h : Refers function clock event kind heard) {value : String}
    {action : ClockAction} (hvalue : splitAction? (cleanChars value.toList) =
      some ((reference function clock event).toList, action)) (target : ClockKind) :
    parse? target value = some { starting target function kind heard with action } := by
  have hdot : isWordChar '.' = false := by decide
  -- the dots of a reference are those between its parts
  have hsplit : splitAt '.' (reference function clock event).toList =
      [function.toList, clock.toList, event.toList] := by
    rw [toList_reference, splitAt_append (not_mem_of_all_isWordChar hdot h.function.all_isWordChar),
      splitAt_append (not_mem_of_all_isWordChar hdot h.all_clock),
      splitAt_eq_singleton (not_mem_of_all_isWordChar hdot h.all_event)]
  have hname : ¬ function.isEmpty = true := fun hempty =>
    h.function.ne_nil (by rw [String.isEmpty_iff.mp hempty]; rfl)
  rw [parse?, hvalue]
  simp only [Option.bind_eq_bind, Option.bind_some, hsplit, List.map_cons, List.map_nil,
    trimChars_word h.function.all_isWordChar, trimChars_word h.all_clock,
    trimChars_word h.all_event, String.ofList_toList, h.clock, h.event, h.function.ofText,
    if_neg hname]
  rfl

/-- A reference with an action behind it is read as the parts that it is made of. -/
theorem parse?_action (h : Refers function clock event kind heard) {word : String}
    {action : ClockAction} (hne : word.toList ≠ []) (hword : word.toList.all isWordChar = true)
    (haction : ClockAction.parse? (lower word) = some action) (target : ClockKind) :
    parse? target (reference function clock event ++ "," ++ word) =
      some { starting target function kind heard with action } := by
  have htext : (reference function clock event ++ "," ++ word).toList =
      (reference function clock event).toList ++ ',' :: word.toList := by
    rw [String.toList_append, String.toList_append, List.append_assoc]
    rfl
  have hclean : cleanChars (reference function clock event ++ "," ++ word).toList =
      (reference function clock event).toList ++ ',' :: word.toList := by
    have hparts : (reference function clock event).toList ++ ',' :: word.toList = function.toList ++
        '.' :: (clock.toList ++ '.' :: (event.toList ++ [','])) ++ word.toList := by
      rw [toList_reference]
      simp
    rw [htext, hparts]
    exact cleanChars_of_words h.function.ne_nil h.function.all_isWordChar hne hword
  refine h.parse?_of_splitAction? ?_ target
  -- the comma before the action is the first one
  rw [hclean, splitAction?, cutFirst_append h.comma_not_mem_reference]
  dsimp only
  rw [cleanChars_word hword, String.ofList_toList, haction, Option.map_some]

/-- A reference is read as the parts that it is made of. -/
theorem parse?_reference (h : Refers function clock event kind heard) (target : ClockKind) :
    parse? target (reference function clock event) =
      some (starting target function kind heard) := by
  refine h.parse?_of_splitAction? ?_ target
  rw [h.cleanChars_reference, splitAction?, cutFirst_eq_none h.comma_not_mem_reference]

end Trigger.Refers

namespace Trigger

/-- The parts that a trigger is read off: whatever the value is, the name of the source function is
read off some text, the clock that is driven is the one that is asked about, and no function is
found yet. -/
theorem exists_of_parse? {target : ClockKind} {value : String} {t : Trigger}
    (h : parse? target value = some t) :
    ∃ raw, ¬ (Identifier.ofText raw).isEmpty = true ∧ t.sourceFunction = Identifier.ofText raw ∧
      t.target = target ∧ t.source = none := by
  rw [parse?] at h
  obtain ⟨⟨reference, action⟩, -, h⟩ := Option.bind_eq_some_iff.mp h
  dsimp only at h
  split at h
  next function clock event _ =>
    split at h
    · cases h
    next hname =>
      obtain ⟨sourceClock, -, h⟩ := Option.bind_eq_some_iff.mp h
      obtain ⟨event, -, h⟩ := Option.bind_eq_some_iff.mp h
      cases h
      exact ⟨String.ofList function, hname, rfl, rfl, rfl⟩
  · cases h

/-- A trigger as it is read for a clock: its source function has a name that reads as itself, and
has not been looked for yet. -/
structure AsRead (t : Trigger) (target : ClockKind) : Prop where
  target : t.target = target
  sourceFunction : IsRead t.sourceFunction.toList
  source : t.source = none

theorem asRead_of_parse? {target : ClockKind} {value : String} {t : Trigger}
    (h : parse? target value = some t) : t.AsRead target := by
  obtain ⟨raw, hraw, hname, htarget, hsource⟩ := exists_of_parse? h
  refine ⟨htarget, ?_, hsource⟩
  rw [hname, Identifier.isRead_iff]
  exact ⟨fun hempty => hraw (String.isEmpty_iff.mpr hempty), Identifier.ofText_ofText raw⟩

/-- A trigger as a value, in the words that scripts have for its parts. -/
def text (t : Trigger) : String :=
  t.sourceFunction ++ "." ++ t.sourceClock.clockName ++ "." ++ t.event.scriptName ++ "," ++
    t.action.scriptName

/-- The words of scripts for clocks and events are among those that references are read with. -/
theorem refers_scriptNames {function : String} (h : IsRead function.toList) (kind : ClockKind)
    (event : ClockEvent) : Refers function kind.clockName event.scriptName kind event where
  function := h
  clock := by cases kind <;> decide
  event := by cases event <;> decide

/-- So are their words for actions, once the capital in one of them is made small. -/
theorem parse?_scriptName (action : ClockAction) :
    action.scriptName.toList ≠ [] ∧ action.scriptName.toList.all isWordChar = true ∧
      ClockAction.parse? (lower action.scriptName) = some action := by
  cases action <;> decide

/-- A trigger that was read once is read again off its own text. -/
theorem AsRead.parse?_text {t : Trigger} {target : ClockKind} (h : t.AsRead target) :
    parse? target t.text = some t := by
  obtain ⟨hne, hword, haction⟩ := parse?_scriptName t.action
  have hrefers := refers_scriptNames h.sourceFunction t.sourceClock t.event
  have hread : parse? target t.text = some { starting target t.sourceFunction t.sourceClock t.event
      with action := t.action } := hrefers.parse?_action hne hword haction target
  -- what was read has the parts of `t` that are written down, and `h` tells the other two
  rw [hread, starting, ← h.target, ← h.source]

/-- A trigger can be written down and read. For every clock that is driven, every clock that is
listened to, every event and every action, and for every name that reads as itself, the value that
is put together from the words of scripts for these is read as exactly the trigger with these parts,
whose source is not found yet. And whatever value is read at all, the trigger that it gives listens
to a function by a name that reads as itself, and is read again off its own text. -/
theorem text_read_back :
    (∀ (target sourceClock : ClockKind) (event : ClockEvent) (action : ClockAction)
      (name : String), name ≠ "" → Identifier.ofText name = name →
        parse? target (name ++ "." ++ sourceClock.clockName ++ "." ++ event.scriptName ++ "," ++
            action.scriptName) =
          some { target, action, sourceFunction := name, sourceClock, event, source := none }) ∧
      ∀ (target : ClockKind) (value : String) (t : Trigger), parse? target value = some t →
        t.sourceFunction ≠ "" ∧ Identifier.ofText t.sourceFunction = t.sourceFunction ∧
          t.target = target ∧ parse? t.target t.text = some t := by
  constructor
  · intro target sourceClock event action name hne hname
    have hasRead : AsRead ⟨target, action, name, sourceClock, event, none⟩ target :=
      ⟨rfl, Identifier.isRead_iff.mpr ⟨hne, hname⟩, rfl⟩
    exact hasRead.parse?_text
  · intro target value t hvalue
    have hasRead := asRead_of_parse? hvalue
    obtain ⟨hne, hname⟩ := Identifier.isRead_iff.mp hasRead.sourceFunction
    refine ⟨hne, hname, hasRead.target, ?_⟩
    rw [hasRead.target]
    exact hasRead.parse?_text

/-- A name with a digit in front and an action of two words are written down and read, and a value
in other words, with quotation marks and white space, is read as a trigger that can be. -/
theorem text_read_back_twoWords :
    parse? .alpha "_3dBox.rotateClock.iterated,fastForward" =
        some { target := .alpha, action := .fastForward, sourceFunction := "_3dBox"
               sourceClock := .rotate, event := .iterated, source := none } ∧
      ∃ t, parse? .scale " '3D box . Rotation . Iteration, \x22Fast-Forward\x22 ' " = some t ∧
        t.text = "_3DBox.rotateClock.iterated,fastForward" ∧ parse? t.target t.text = some t := by
  obtain ⟨hwritten, hread⟩ := text_read_back
  refine ⟨hwritten .alpha .rotate .iterated .fastForward "_3dBox" (by decide) (by decide),
    { target := .scale, action := .fastForward, sourceFunction := "_3DBox"
      sourceClock := .rotate, event := .iterated, source := none },
    by decide +kernel, by decide, ?_⟩
  exact (hread .scale " '3D box . Rotation . Iteration, \x22Fast-Forward\x22 ' " _
    (by decide +kernel)).2.2.2

end Trigger

end ArtCanvas
