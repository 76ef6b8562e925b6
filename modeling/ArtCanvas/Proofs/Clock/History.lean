import ArtCanvas.Proofs.Clock.Fields
import ArtCanvas.Proofs.Geometry.Unions
import ArtCanvas.Proofs.Setting.Sequence
import ArtCanvas.Script.Emitter
import Mathlib.Data.List.Induction

/-!
# What a clock has of its options

A clock is set up by options, any number of them and in any order. What it holds in the end is told
by what became of each of them: in each field stands the value of the last option that was put into
effect on it. The direction is set by its own options, and else by the fact that some option was put
into effect, because that wakes an idle clock.

* `ClockField.lastApplied?`: the value that was put into effect last.
* `Clock.History`: a clock holds what its options say. An option keeps this
  (`Clock.History.concat`), and so do many (`Clock.history_setAll`).
* `ClockSetting.InRange`: the numbers that options let through.
* `Clock.options_tell`: the fields of a clock after any options.
-/

namespace ArtCanvas

/-! ### What was put into effect last -/

/-- The value of the last option of a record that was put into effect on a field, under any of the
keys of the field. -/
def ClockField.lastApplied? (field : ClockField) (record : OptionRecord) : Option String :=
  (record.applied.reverse.find? fun entry => ofKey? entry.1.1 = some field).map fun entry =>
    entry.1.2

namespace OptionRecord

variable {record : OptionRecord} {key value : String}

theorem applied_concat_applied :
    applied (record ++ [((key, value), .applied)]) = record.applied ++ [((key, value), .applied)] :=
  List.filter_append ..

/-- An option that is refused adds nothing to what was put into effect. -/
theorem applied_concat_of_ne {outcome : Outcome} (h : outcome ≠ .applied) :
    applied (record ++ [((key, value), outcome)]) = record.applied := by
  simp [applied, List.filter_append, h]

end OptionRecord

namespace ClockField

variable {record : OptionRecord} {key value : String} {field : ClockField}

@[simp]
theorem lastApplied?_nil (field : ClockField) : field.lastApplied? [] = none := rfl

/-- An option that is put into effect is the last one for the field that its key addresses, and for
no other. -/
theorem lastApplied?_concat_applied :
    field.lastApplied? (record ++ [((key, value), .applied)]) =
      if ofKey? key = some field then some value else field.lastApplied? record := by
  rw [lastApplied?, OptionRecord.applied_concat_applied, List.reverse_concat, List.find?_cons]
  by_cases h : ofKey? key = some field <;> simp [h, lastApplied?]

end ClockField

namespace Clock

/-- The clock of a kind, with a direction that no option gave. -/
def starting (kind : ClockKind) (d : Direction) : Clock Float := { ofKind kind with direction := d }

/-- A clock of a kind that started in the direction `d` holds what became of its options. -/
structure History (kind : ClockKind) (d : Direction) (record : OptionRecord) (c : Clock Float) :
    Prop where
  /-- Each field, the direction too, holds the value that was put into effect on it last. -/
  last : ∀ field value, field.lastApplied? record = some value →
    ClockSetting.read? field (Text.clean value) = some (c.current field)
  /-- A field on which nothing was put into effect holds its default. -/
  kept : ∀ field, field ≠ .direction → field.lastApplied? record = none →
    c.current field = (ofKind kind).current field
  /-- A direction that no option gave is the first one, but an idle clock runs forward once any
  option was put into effect. -/
  direction : ClockField.direction.lastApplied? record = none →
    c.direction = if d = .idle ∧ record.applied ≠ [] then .forward else d
  /-- Whether an option gave the direction. -/
  given : c.directionGiven = (ClockField.direction.lastApplied? record).isSome
  /-- No option changes the range. -/
  range : c.range = kind.defaultRange
  /-- No option changes the kind. -/
  kind : c.kind = kind

variable {kind : ClockKind} {d : Direction} {record : OptionRecord} {c : Clock Float}

theorem history_nil (kind : ClockKind) (d : Direction) :
    History kind d [] (starting kind d) where
  last field value h := by simp at h
  kept field hdirection _ := by cases field <;> first | rfl | exact absurd rfl hdirection
  direction _ := by simp [starting, OptionRecord.applied]
  given := rfl
  range := rfl
  kind := rfl

/-- An option that is put into effect is the last one for its field, and wakes the clock if nothing
was put into effect before and the clock was idle. -/
theorem History.apply (h : History kind d record c) {key value : String} {field : ClockField}
    {s : ClockSetting} (hkey : ClockField.ofKey? key = some field)
    (hread : ClockSetting.read? field (Text.clean value) = some s) :
    History kind d (record ++ [((key, value), .applied)]) (Clock.apply s c) := by
  obtain rfl := ClockSetting.field_of_read? hread
  -- the option is the last one for its own field, and all other fields keep theirs
  have hlast : ∀ field, ClockField.lastApplied? field (record ++ [((key, value), .applied)]) =
      if s.field = field then some value else field.lastApplied? record := by
    intro field
    simp only [ClockField.lastApplied?_concat_applied, hkey, Option.some_inj]
  constructor
  case last =>
    intro field value' hvalue
    rw [hlast] at hvalue
    split at hvalue
    next heq =>
      obtain rfl := Option.some.inj hvalue
      rw [← heq, current_apply_self, hread]
    next hne =>
      -- a direction on which something was put into effect was given, so the clock is not woken
      have hgiven : field = .direction → c.directionGiven = true := by
        rintro rfl
        rw [h.given, hvalue, Option.isSome_some]
      rw [h.last field value' hvalue, current_apply_of_ne (Ne.symm hne) hgiven]
  case kept =>
    intro field hfield hnone
    rw [hlast] at hnone
    split at hnone
    · cases hnone
    next hne =>
      rw [current_apply_of_ne (Ne.symm hne) fun heq => absurd heq hfield,
        h.kept field hfield hnone]
  case direction =>
    intro hnone
    rw [hlast] at hnone
    split at hnone
    · cases hnone
    next hne =>
      have hungiven : c.directionGiven = false := by rw [h.given, hnone, Option.isSome_none]
      -- from now on something was put into effect, and the clock is awake if it was to wake at all
      rw [direction_apply_of_ne hne, h.direction hnone, OptionRecord.applied_concat_applied]
      by_cases hidle : d = .idle <;> by_cases hnil : record.applied = [] <;>
        simp [hidle, hnil, hungiven]
  case given =>
    rw [directionGiven_apply, hlast, h.given]
    by_cases hfield : s.field = .direction <;> simp [hfield]
  case range => rw [range_apply, h.range]
  case kind => rw [kind_apply, h.kind]

/-- An option that is refused changes nothing, and is not counted. -/
theorem History.refuse (h : History kind d record c) {key value : String} {outcome : Outcome}
    (houtcome : outcome ≠ .applied) :
    History kind d (record ++ [((key, value), outcome)]) c := by
  have happlied : OptionRecord.applied (record ++ [((key, value), outcome)]) = record.applied :=
    OptionRecord.applied_concat_of_ne houtcome
  have hlast : ∀ field : ClockField,
      field.lastApplied? (record ++ [((key, value), outcome)]) = field.lastApplied? record := by
    intro field
    rw [ClockField.lastApplied?, happlied, ClockField.lastApplied?]
  constructor
  case last => simpa only [hlast] using h.last
  case kept => simpa only [hlast] using h.kept
  case direction => simpa only [hlast, happlied] using h.direction
  case given => rw [hlast, h.given]
  case range => exact h.range
  case kind => exact h.kind

/-- An option keeps the history of a clock. -/
theorem History.concat (h : History kind d record c) (option : String × String) :
    History kind d (record ++ [(option, (Clock.setter option c).1)]) (Clock.setter option c).2 := by
  obtain ⟨key, value⟩ := option
  rw [Setter.reads_clock]
  dsimp only
  cases hparse : ClockSetting.parse key value with
  | unknown => exact h.refuse (by decide)
  | malformed => exact h.refuse (by decide)
  | setting s =>
    obtain ⟨field, hkey, hread⟩ := ClockSetting.parse_eq_setting_iff.mp hparse
    exact h.apply hkey hread

/-- Any options make the history of a clock. -/
theorem history_setAll (kind : ClockKind) (d : Direction) (options : List (String × String)) :
    History kind d (Clock.setter.setAll options (starting kind d)).1
      (Clock.setter.setAll options (starting kind d)).2 := by
  -- the last option finds a clock that holds what became of the ones before
  induction options using List.reverseRecOn with
  | nil => exact history_nil kind d
  | append_singleton options option ih =>
    rw [Setter.setAll_concat]
    exact ih.concat option

end Clock

/-! ### The numbers that options let through -/

/-- A duration is finite and positive, a delay finite and not negative, and a factor and an offset
are finite. -/
def ClockSetting.InRange : ClockSetting → Prop
  | .duration seconds => seconds.isFinite = true ∧ 0.0 < seconds
  | .delay seconds => seconds.isFinite = true ∧ 0.0 ≤ seconds
  | .multiplier number | .offset number => number.isFinite = true
  | .direction _ | .iterations _ | .easing _ | .reverses _ => True

theorem Decimal.isFinite_of_readFinite? {text : String} {x : Float}
    (h : readFinite? text = some x) : x.isFinite = true :=
  (Option.filter_eq_some_iff.mp h).2

/-- What is read for a field is in range. -/
theorem ClockSetting.inRange_of_read? {field : ClockField} {value : String} {s : ClockSetting}
    (h : read? field value = some s) : s.InRange := by
  cases field with
  | duration | delay =>
    obtain ⟨x, hx, rfl⟩ := Option.map_eq_some_iff.mp h
    obtain ⟨hread, hbound⟩ := Option.filter_eq_some_iff.mp hx
    exact ⟨Decimal.isFinite_of_readFinite? hread, of_decide_eq_true hbound⟩
  | multiplier | offset =>
    obtain ⟨x, hread, rfl⟩ := Option.map_eq_some_iff.mp h
    exact Decimal.isFinite_of_readFinite? hread
  | direction | iterations | easing | reverses =>
    obtain ⟨_, -, rfl⟩ := Option.map_eq_some_iff.mp h
    trivial

namespace Clock

variable {kind : ClockKind} {d : Direction} {record : OptionRecord} {c : Clock Float}

/-- A field starts in range. -/
theorem inRange_ofKind (kind : ClockKind) (field : ClockField) :
    ((ofKind kind).current field).InRange := by
  cases field with
  | duration => exact (by decide +kernel : (1.0 : Float).isFinite = true ∧ (0.0 : Float) < 1.0)
  | delay => exact (by decide +kernel : (0.0 : Float).isFinite = true ∧ (0.0 : Float) ≤ 0.0)
  | multiplier => exact (by decide +kernel : (1.0 : Float).isFinite = true)
  | offset => exact (by decide +kernel : (0.0 : Float).isFinite = true)
  | direction | iterations | easing | reverses => trivial

/-- Whatever became of its options, the fields of a clock are in range. -/
theorem History.inRange (h : History kind d record c) (field : ClockField) :
    (c.current field).InRange := by
  cases hlast : field.lastApplied? record with
  | some value => exact ClockSetting.inRange_of_read? (h.last field value hlast)
  | none =>
    by_cases hfield : field = .direction
    · subst hfield
      trivial
    · rw [h.kept field hfield hlast]
      exact inRange_ofKind kind field

/-- One run of any kind of clock covers a finite range. -/
theorem isFinite_defaultRange (kind : ClockKind) :
    (kind.defaultRange : Float).isFinite = true := by
  cases kind <;> decide +kernel

/-- The expression that makes a clock, with all numbers as they are. -/
def plainLiteral (c : Clock Float) : String :=
  let arguments := [Decimal.plain c.duration, Decimal.plain c.delay, toString c.direction.sign,
    toString c.reverses, toString c.iterations, "timing." ++ c.easing.name, Decimal.plain c.range,
    Decimal.plain c.multiplier, Decimal.plain c.offset]
  "new Clock(" ++ ", ".intercalate arguments ++ ")"

/-- A clock with finite numbers is written with these numbers, and never with a stand-in. -/
theorem literal_eq_of_isFinite (hduration : c.duration.isFinite = true)
    (hdelay : c.delay.isFinite = true) (hrange : c.range.isFinite = true)
    (hmultiplier : c.multiplier.isFinite = true) (hoffset : c.offset.isFinite = true) :
    c.literal = c.plainLiteral := by
  simp only [literal, plainLiteral, exactNumber, hduration, hdelay, hrange, hmultiplier, hoffset,
    if_true]

/-- A clock of any kind that starts in any direction holds what became of its options, whatever
they are: in each field the value that was put into effect last, and else the default. Where no
option gave a direction, an idle clock runs forward if any option was put into effect. Its duration
is finite and positive, so that no sample divides by zero, its other numbers are finite, and it is
written with these numbers. -/
theorem options_tell (kind : ClockKind) (d : Direction) (options : List (String × String)) :
    let (record, c) := Clock.setter.setAll options (starting kind d)
    record.map Prod.fst = options ∧ History kind d record c ∧
      (c.duration.isFinite = true ∧ 0.0 < c.duration ∧ (c.duration == 0.0) = false) ∧
      (c.delay.isFinite = true ∧ 0.0 ≤ c.delay) ∧
      c.multiplier.isFinite = true ∧ c.offset.isFinite = true ∧
      c.literal = c.plainLiteral := by
  have hrecord : (Clock.setter.setAll options (starting kind d)).1.map Prod.fst = options := by
    rw [Setter.reads_clock.setAll_eq, List.map_map]
    exact List.map_id options
  have hhistory := history_setAll kind d options
  generalize Clock.setter.setAll options (starting kind d) = run at hrecord hhistory ⊢
  obtain ⟨record, c⟩ := run
  have hduration := hhistory.inRange .duration
  have hdelay := hhistory.inRange .delay
  have hmultiplier := hhistory.inRange .multiplier
  have hoffset := hhistory.inRange .offset
  have hrange : c.range.isFinite = true := hhistory.range ▸ isFinite_defaultRange kind
  exact ⟨hrecord, hhistory,
    ⟨hduration.1, hduration.2, Scalar.beq_eq_false_of_lt hduration.2⟩, hdelay, hmultiplier, hoffset,
    literal_eq_of_isFinite hduration.1 hdelay.1 hrange hmultiplier hoffset⟩

/-- A direction that was given is kept, also if it leaves the clock idle, and a value that is
refused is not the last one. -/
example :
    let (_, c) := Clock.setter.setAll
      [("duration", "2"), ("dir", "none"), ("dur", "3"), ("duration", "0")] (ofKind .rotate)
    c.duration = 3.0 ∧ c.direction = .idle := by
  decide +kernel

end Clock

end ArtCanvas
