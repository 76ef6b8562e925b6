import ArtCanvas.Clock.Basic
import ArtCanvas.Identifier
import ArtCanvas.Text.Split

/-!
# Triggers

A trigger drives one clock when another one does something. It is written as
`function.clock.event,action`; without an action, the clock is started.
-/

namespace ArtCanvas

open Text

/-- What a clock reports. -/
inductive ClockEvent where
  | started
  | stopped
  | iterated
  | finished
  deriving DecidableEq, Repr

namespace ClockEvent

/-- The name of the event in scripts. -/
def scriptName : ClockEvent → String
  | .started => "started"
  | .stopped => "stopped"
  | .iterated => "iterated"
  | .finished => "finished"

/-- The name of the event in reports. -/
def name : ClockEvent → String
  | .started => "Started"
  | .stopped => "Stopped"
  | .iterated => "Iterated"
  | .finished => "Finished"

/-- Reads the name of an event in small letters. -/
def parse? : String → Option ClockEvent
  | "started" | "start" => some .started
  | "stopped" | "stop" => some .stopped
  | "iterated" | "iteration" => some .iterated
  | "finished" | "finish" => some .finished
  | _ => none

end ClockEvent

/-- What a clock is told to do. -/
inductive ClockAction where
  | start
  | restart
  | stop
  | toggle
  | rewind
  | fastForward
  | reverse
  | reset
  deriving DecidableEq, Repr

namespace ClockAction

/-- The name of the action in scripts. -/
def scriptName : ClockAction → String
  | .start => "start"
  | .restart => "restart"
  | .stop => "stop"
  | .toggle => "toggle"
  | .rewind => "rewind"
  | .fastForward => "fastForward"
  | .reverse => "reverse"
  | .reset => "reset"

/-- The name of the action in reports. -/
def name : ClockAction → String
  | .start => "Start"
  | .restart => "Restart"
  | .stop => "Stop"
  | .toggle => "Toggle"
  | .rewind => "Rewind"
  | .fastForward => "FastForward"
  | .reverse => "Reverse"
  | .reset => "Reset"

/-- Reads the name of an action in small letters. -/
def parse? : String → Option ClockAction
  | "start" => some .start
  | "restart" => some .restart
  | "stop" => some .stop
  | "toggle" => some .toggle
  | "rewind" => some .rewind
  | "fastforward" | "fast-forward" => some .fastForward
  | "reverse" => some .reverse
  | "reset" => some .reset
  | _ => none

end ClockAction

/-- A trigger of a function. -/
structure Trigger where
  /-- The clock of the function itself that is driven. -/
  target : ClockKind
  /-- What that clock is told to do. -/
  action : ClockAction
  /-- The name of the function whose clock is listened to. -/
  sourceFunction : String
  /-- The clock that is listened to. -/
  sourceClock : ClockKind
  /-- What is listened for. -/
  event : ClockEvent
  /-- The position of the source function, once it has been found. -/
  source : Option Nat
  deriving DecidableEq, Repr

namespace Trigger

/-- A clock name in small letters, with or without its ending. -/
def parseClock? (name : List Char) : Option ClockKind :=
  let ending := ['c', 'l', 'o', 'c', 'k']
  let stem := (dropStart? ending.reverse name.reverse).map List.reverse
  ClockKind.parse? (String.ofList (stem.getD name))

/-- The action behind the first comma, which has to be a known one, and the text before it. -/
def splitAction? (cs : List Char) : Option (List Char × ClockAction) :=
  match cutFirst ',' cs with
  | none => some (cs, .start)
  | some (reference, action) =>
    (ClockAction.parse? (lower (String.ofList (cleanChars action)))).map fun action =>
      (reference, action)

/-- Reads the trigger that a value describes, for a clock of kind `target`. Its source function is
named as layers are. -/
def parse? (target : ClockKind) (value : String) : Option Trigger := do
  let (reference, action) ← splitAction? (cleanChars value.toList)
  match (splitAt '.' reference).map trimChars with
  | [function, clock, event] =>
    let sourceFunction := Identifier.ofText (String.ofList function)
    if sourceFunction.isEmpty then none
    else
      let sourceClock ← parseClock? (clock.map Char.toLower)
      let event ← ClockEvent.parse? (lower (String.ofList event))
      return { target, action, sourceFunction, sourceClock, event, source := none }
  | _ => none

end Trigger

end ArtCanvas
