import ArtCanvas.Clock.Setting

/-!
# Setting the fields of a clock

An option is a setting if its key addresses a field and its value can be read. A setting puts a
value into one field of a clock, and then the clock wakes if it is idle and its direction was not
given. Waking comes to the same whenever it happens, so settings of different fields can change
places, although each of them may also change the direction.

* `ClockSetting.parse_eq_setting_iff`: the options that are settings.
* `Clock.current`: what a field of a clock holds.
* `Clock.put`, `Clock.apply_eq`: a setting puts a value, and then the clock wakes.
* `Clock.current_apply_self`, `Clock.current_apply_of_ne`, `Clock.direction_apply_of_ne`: the fields
  after a setting.
* `Clock.apply_comm`: settings of different fields can change places.
-/

namespace ArtCanvas

/-! ### Reading options -/

/-- An option of a clock is a setting if its key addresses a field and its value can be read for
that field. -/
theorem ClockSetting.parse_eq_setting_iff {key value : String} {s : ClockSetting} :
    parse key value = .setting s ↔
      ∃ field, ClockField.ofKey? key = some field ∧ read? field (Text.clean value) = some s := by
  unfold parse
  cases ClockField.ofKey? key with
  | none => simp
  | some field => simp [Reading.ofOption_eq_setting_iff]

/-- What is read for a field sets that field. -/
theorem ClockSetting.field_of_read? {field : ClockField} {value : String} {s : ClockSetting}
    (h : read? field value = some s) : s.field = field := by
  cases field <;>
    (obtain ⟨_, -, rfl⟩ := Option.map_eq_some_iff.mp h; rfl)

namespace Clock

variable {s s' : ClockSetting} {field : ClockField} {c : Clock Float}

/-! ### Fields and their values -/

/-- What a field holds, as the setting that gives it. -/
def current (c : Clock Float) : ClockField → ClockSetting
  | .duration => .duration c.duration
  | .delay => .delay c.delay
  | .direction => .direction c.direction
  | .iterations => .iterations c.iterations
  | .easing => .easing c.easing
  | .reverses => .reverses c.reverses
  | .multiplier => .multiplier c.multiplier
  | .offset => .offset c.offset

/-- The clock with a new value in one field, and not woken by that. -/
def put (s : ClockSetting) (c : Clock Float) : Clock Float :=
  match s with
  | .direction direction => { c with direction, directionGiven := true }
  | .duration duration => { c with duration }
  | .delay delay => { c with delay }
  | .iterations iterations => { c with iterations }
  | .easing easing => { c with easing }
  | .reverses reverses => { c with reverses }
  | .multiplier multiplier => { c with multiplier }
  | .offset offset => { c with offset }

/-! ### Waking -/

/-- Waking changes nothing but the direction. -/
theorem wake_eq (c : Clock Float) :
    c.wake = { c with
      direction :=
        if c.direction = .idle ∧ c.directionGiven = false then .forward else c.direction } := by
  unfold wake
  split <;> rfl

theorem wake_of_directionGiven (h : c.directionGiven = true) : c.wake = c :=
  if_neg fun hand => by simp [h] at hand

theorem current_wake (h : field ≠ .direction) : c.wake.current field = c.current field := by
  rw [wake_eq]
  cases field <;> first | rfl | exact absurd rfl h

/-- A clock that is awake is not woken again. -/
theorem wake_wake (c : Clock Float) : c.wake.wake = c.wake := by
  unfold wake
  split <;> rfl

/-- A setting puts its value into its field, and then the clock wakes. Once its direction is given
it does not. -/
theorem apply_eq (s : ClockSetting) (c : Clock Float) : apply s c = (put s c).wake := by
  cases s with
  | direction direction => exact (wake_of_directionGiven rfl).symm
  | _ => rfl

/-- It does not matter whether the clock is awake when a value is put into a field. -/
theorem wake_put_wake (s : ClockSetting) (c : Clock Float) :
    (put s c.wake).wake = (put s c).wake := by
  by_cases hfield : s.field = .direction
  · -- the direction that the clock woke to is replaced
    have hput : put s c.wake = put s c := by
      rw [wake_eq]
      cases s <;> first | rfl | cases hfield
    rw [hput]
  · have hput : put s c.wake = (put s c).wake := by
      rw [wake_eq, wake_eq]
      cases s <;> first | rfl | exact absurd rfl hfield
    rw [hput, wake_wake]

/-! ### Fields after a setting -/

theorem current_put_self (s : ClockSetting) (c : Clock Float) : (put s c).current s.field = s := by
  cases s <;> rfl

theorem current_put_of_ne (h : field ≠ s.field) : (put s c).current field = c.current field := by
  cases s <;> cases field <;> first | rfl | exact absurd rfl h

theorem directionGiven_apply (s : ClockSetting) (c : Clock Float) :
    (apply s c).directionGiven = (decide (s.field = .direction) || c.directionGiven) := by
  rw [apply_eq, wake_eq]
  cases s <;> rfl

/-- A setting leaves the kind of a clock alone. -/
theorem kind_apply (s : ClockSetting) (c : Clock Float) : (apply s c).kind = c.kind := by
  rw [apply_eq, wake_eq]
  cases s <;> rfl

/-- A setting leaves the range that one run covers alone. -/
theorem range_apply (s : ClockSetting) (c : Clock Float) : (apply s c).range = c.range := by
  rw [apply_eq, wake_eq]
  cases s <;> rfl

/-- A setting gives its field the new value. -/
theorem current_apply_self (s : ClockSetting) (c : Clock Float) :
    (apply s c).current s.field = s := by
  cases s with
  | direction direction => rfl
  | _ => rw [apply_eq, current_wake (by simp [ClockSetting.field]), current_put_self]

/-- Where the direction is not set, it stays if it was given, and an idle clock wakes if not. -/
theorem direction_apply_of_ne (h : s.field ≠ .direction) :
    (apply s c).direction =
      if c.direction = .idle ∧ c.directionGiven = false then .forward else c.direction := by
  rw [apply_eq, wake_eq]
  cases s <;> first | rfl | exact absurd rfl h

/-- A setting leaves all other fields, and the direction too if it was given. -/
theorem current_apply_of_ne (h : field ≠ s.field)
    (hgiven : field = .direction → c.directionGiven = true) :
    (apply s c).current field = c.current field := by
  by_cases hfield : field = .direction
  · subst hfield
    rw [current, current, direction_apply_of_ne h.symm, if_neg fun hidle => ?_]
    exact Bool.eq_false_iff.mp hidle.2 (hgiven rfl)
  · rw [apply_eq, current_wake hfield, current_put_of_ne h]

/-! ### The order of settings -/

theorem put_comm (h : s.field ≠ s'.field) (c : Clock Float) :
    put s (put s' c) = put s' (put s c) := by
  cases s <;> cases s' <;> first | rfl | exact absurd rfl h

/-- Settings of different fields can change places. -/
theorem apply_comm (h : s.field ≠ s'.field) (c : Clock Float) :
    apply s (apply s' c) = apply s' (apply s c) := by
  simp only [apply_eq, wake_put_wake, put_comm h]

end Clock

end ArtCanvas
