import ArtCanvas.Clock.Basic
import ArtCanvas.Decimal.Reading

/-!
# Clock options

Each option of a clock addresses one of its fields, under one of several keys, and stands for a new
value of it. Setting anything but the direction wakes an idle clock, unless its direction was given.

An option is told twice here. `ClockSetting.parse` says what it means, without a look at a clock,
and `Clock.apply` what its meaning does. `Clock.setOption` is what is run: it goes through the keys,
and checks, writes and returns where it may.
-/

namespace ArtCanvas

/-- Reads a yes or no, in capital or small letters. -/
def parseFlag? (value : String) : Option Bool :=
  match Text.lower value with
  | "yes" | "y" | "true" | "1" | "on" => some true
  | "no" | "n" | "false" | "0" | "off" => some false
  | _ => none

/-- Reads a direction, in capital or small letters. -/
def Direction.parse? (value : String) : Option Direction :=
  match Text.lower value with
  | "forward" | "f" | "1" => some .forward
  | "backward" | "b" | "-1" => some .backward
  | "none" | "n" | "0" => some .idle
  | _ => none

/-- The fields of a clock that options address. -/
inductive ClockField where
  | duration
  | delay
  | direction
  | iterations
  | easing
  | reverses
  | multiplier
  | offset
  deriving DecidableEq, Repr

/-- The field that a key addresses. -/
def ClockField.ofKey? : String → Option ClockField
  | "duration" | "dur" => some .duration
  | "delay" => some .delay
  | "direction" | "dir" => some .direction
  | "iterations" | "iter" => some .iterations
  | "timing-function" | "timing" | "tf" => some .easing
  | "reverses" | "rev" => some .reverses
  | "multiplier" | "mult" => some .multiplier
  | "offset" => some .offset
  | _ => none

/-- A new value for one field of a clock. -/
inductive ClockSetting where
  | duration (seconds : Float)
  | delay (seconds : Float)
  | direction (direction : Direction)
  | iterations (count : Nat)
  | easing (easing : Easing)
  | reverses (flag : Bool)
  | multiplier (factor : Float)
  | offset (offset : Float)
  deriving Repr

namespace ClockSetting

/-- The field that is set. -/
def field : ClockSetting → ClockField
  | .duration _ => .duration
  | .delay _ => .delay
  | .direction _ => .direction
  | .iterations _ => .iterations
  | .easing _ => .easing
  | .reverses _ => .reverses
  | .multiplier _ => .multiplier
  | .offset _ => .offset

/-- Reads a number of runs; a word stands for no end. -/
def parseIterations? (value : String) : Option Nat :=
  match Text.lower value with
  | "infinite" | "inf" | "forever" => some 0
  | _ => Decimal.readNat? value

/-- Reads a value for a field. A duration is positive, and a delay is not negative. -/
def read? (field : ClockField) (value : String) : Option ClockSetting :=
  match field with
  | .duration => ((Decimal.readFinite? value).filter (0.0 < ·)).map .duration
  | .delay => ((Decimal.readFinite? value).filter (0.0 ≤ ·)).map .delay
  | .direction => (Direction.parse? value).map .direction
  | .iterations => (parseIterations? value).map .iterations
  | .easing => (Easing.parse? value).map .easing
  | .reverses => (parseFlag? value).map .reverses
  | .multiplier => (Decimal.readFinite? value).map .multiplier
  | .offset => (Decimal.readFinite? value).map .offset

/-- Reads an option of a clock, with its value still wrapped. -/
def parse (key value : String) : Reading ClockSetting :=
  match ClockField.ofKey? key with
  | none => .unknown
  | some field => .ofOption (read? field (Text.clean value))

end ClockSetting

namespace Clock

/-- Lets an idle clock run forward, unless its direction was given. -/
def wake (c : Clock Float) : Clock Float :=
  if c.direction = .idle ∧ c.directionGiven = false then { c with direction := .forward } else c

/-- The clock with a new value in one field. -/
def apply (s : ClockSetting) (c : Clock Float) : Clock Float :=
  match s with
  | .direction direction => { c with direction, directionGiven := true }
  | .duration duration => wake { c with duration }
  | .delay delay => wake { c with delay }
  | .iterations iterations => wake { c with iterations }
  | .easing easing => wake { c with easing }
  | .reverses reverses => wake { c with reverses }
  | .multiplier multiplier => wake { c with multiplier }
  | .offset offset => wake { c with offset }

/-- Lets an idle clock run forward after an option that was put into effect, unless the direction
was given. -/
def activate (outcome : Outcome) : StateM (Clock Float) Outcome := do
  let c ← get
  if outcome = .applied ∧ c.isActive = false ∧ c.directionGiven = false then
    modify ({ · with direction := .forward })
  return outcome

/-- Puts an option into effect, key by key. A direction is all that is left to do where one is
given; after any other key the clock may have to be woken. -/
def setOption (key value : String) : StateM (Clock Float) Outcome := do
  let value := Text.clean value
  let outcome ← match key with
    | "duration" | "dur" =>
      match Decimal.readFinite? value with
      | some duration =>
        if 0.0 < duration then
          modify ({ · with duration })
          pure Outcome.applied
        else pure .malformed
      | none => pure .malformed
    | "delay" =>
      match Decimal.readFinite? value with
      | some delay =>
        if 0.0 ≤ delay then
          modify ({ · with delay })
          pure .applied
        else pure .malformed
      | none => pure .malformed
    | "direction" | "dir" =>
      match Direction.parse? value with
      | some direction =>
        modify ({ · with direction, directionGiven := true })
        return .applied
      | none => pure .malformed
    | "iterations" | "iter" =>
      match Text.lower value with
      | "infinite" | "inf" | "forever" =>
        modify ({ · with iterations := 0 })
        pure .applied
      | _ =>
        match Decimal.readNat? value with
        | some iterations =>
          modify ({ · with iterations })
          pure .applied
        | none => pure .malformed
    | "timing-function" | "timing" | "tf" =>
      match Easing.parse? value with
      | some easing =>
        modify ({ · with easing })
        pure .applied
      | none => pure .malformed
    | "reverses" | "rev" =>
      match parseFlag? value with
      | some reverses =>
        modify ({ · with reverses })
        pure .applied
      | none => pure .malformed
    | "multiplier" | "mult" =>
      match Decimal.readFinite? value with
      | some multiplier =>
        modify ({ · with multiplier })
        pure .applied
      | none => pure .malformed
    | "offset" =>
      match Decimal.readFinite? value with
      | some offset =>
        modify ({ · with offset })
        pure .applied
      | none => pure .malformed
    | _ => return .unknown
  activate outcome

/-- The clock after an option, and what became of the option. -/
def set (c : Clock Float) (key value : String) : Outcome × Clock Float :=
  (setOption key value).run c

/-- The running clock of a kind. -/
def running (kind : ClockKind) : Clock Float := { ofKind kind with direction := .forward }

end Clock

end ArtCanvas
