import ArtCanvas.Function.Motion
import ArtCanvas.Proofs.Function.Settings

/-!
# What options do is what they are read as

Options are put into effect key by key: a value is checked, something is written, and some branches
return early. Beside this stands a reading of the option, which does not look at the object, and the
effect of what is read. This module goes through the branches and shows that both agree.

* `Clock.set_eq`, `DrawFunction.set_eq`, `MotionFunction.set_eq`: an option does what it is read as.
* `DrawFunction.set_induction`, `MotionFunction.set_induction`: what is kept by all settings is kept
  by an option.
-/

namespace ArtCanvas

namespace Clock

/-- After an option that took effect, an idle clock is woken. -/
theorem run_activate_applied (c : Clock Float) :
    (activate .applied).run c = (.applied, c.wake) := by
  have hidle : c.isActive = false ↔ c.direction = .idle := by simp [isActive]
  unfold activate wake
  by_cases h : c.direction = .idle ∧ c.directionGiven = false <;> simp [hidle, h] <;> rfl

/-- After any other option, the clock is left alone. -/
theorem run_activate_malformed (c : Clock Float) :
    (activate .malformed).run c = (.malformed, c) := rfl

/-- Branch by branch, an option of a clock does what it is read as. -/
theorem run_setOption (key value : String) (c : Clock Float) :
    (setOption key value).run c =
      ((ClockSetting.parse key value).outcome, (ClockSetting.parse key value).change apply c) := by
  unfold setOption
  split
  case h_1 | h_2 =>
    simp only [ClockSetting.parse, ClockField.ofKey?, ClockSetting.read?]
    cases Decimal.readFinite? (Text.clean value) with
    | none => rfl
    | some duration =>
      by_cases h : 0.0 < duration
      · simp [h, Option.filter, Reading.ofOption, Reading.outcome, Reading.change, apply,
          run_activate_applied]
      · simp [h, Option.filter, Reading.ofOption, Reading.outcome, Reading.change,
          run_activate_malformed]
  case h_3 =>
    simp only [ClockSetting.parse, ClockField.ofKey?, ClockSetting.read?]
    cases Decimal.readFinite? (Text.clean value) with
    | none => rfl
    | some delay =>
      by_cases h : 0.0 ≤ delay
      · simp [h, Option.filter, Reading.ofOption, Reading.outcome, Reading.change, apply,
          run_activate_applied]
      · simp [h, Option.filter, Reading.ofOption, Reading.outcome, Reading.change,
          run_activate_malformed]
  case h_4 | h_5 =>
    simp only [ClockSetting.parse, ClockField.ofKey?, ClockSetting.read?]
    cases Direction.parse? (Text.clean value) <;> rfl
  case h_6 | h_7 =>
    simp only [ClockSetting.parse, ClockField.ofKey?, ClockSetting.read?,
      ClockSetting.parseIterations?]
    split
    case h_4 =>
      cases Decimal.readNat? (Text.clean value) with
      | none => rfl
      | some iterations => exact run_activate_applied _
    all_goals exact run_activate_applied _
  case h_8 | h_9 | h_10 =>
    simp only [ClockSetting.parse, ClockField.ofKey?, ClockSetting.read?]
    cases Easing.parse? (Text.clean value) with
    | none => rfl
    | some easing => exact run_activate_applied _
  case h_11 | h_12 =>
    simp only [ClockSetting.parse, ClockField.ofKey?, ClockSetting.read?]
    cases parseFlag? (Text.clean value) with
    | none => rfl
    | some reverses => exact run_activate_applied _
  case h_13 | h_14 | h_15 =>
    simp only [ClockSetting.parse, ClockField.ofKey?, ClockSetting.read?]
    cases Decimal.readFinite? (Text.clean value) with
    | none => rfl
    | some number => exact run_activate_applied _
  case h_16 =>
    -- the key is none of the others
    have hkey : ClockField.ofKey? key = none := by
      unfold ClockField.ofKey?
      split <;> first | rfl | contradiction
    simp only [ClockSetting.parse, hkey]
    rfl

/-- An option of a clock does what it is read as. -/
theorem set_eq (c : Clock Float) (key value : String) :
    c.set key value =
      ((ClockSetting.parse key value).outcome, (ClockSetting.parse key value).change apply c) :=
  run_setOption key value c

end Clock

namespace DrawFunction

variable {byFunction : Bool}

/-- An origin is put into effect as it is read. -/
theorem run_setOrigin (value : String) (f : DrawFunction) :
    (setOrigin value).run f =
      ((Reading.ofOption ((DrawSetting.parseOrigin? value).map DrawSetting.origin)).outcome,
        (Reading.ofOption ((DrawSetting.parseOrigin? value).map DrawSetting.origin)).change
          (apply byFunction) f) := by
  unfold setOrigin DrawSetting.parseOrigin?
  split
  case h_13 =>
    unfold DrawSetting.parsePair?
    generalize ((Text.splitAt ',' (Text.lower value).toList).map fun piece =>
      String.ofList (Text.trimChars piece)) = pieces
    -- there have to be two pieces, and both have to be finite numbers
    rcases pieces with _ | ⟨h, _ | ⟨v, _ | ⟨piece, pieces⟩⟩⟩
    case cons.cons.nil =>
      simp only [Decimal.readFinite?]
      cases Decimal.readFloat? h with
      | none => rfl
      | some x =>
        cases Decimal.readFloat? v with
        | none => cases hx : x.isFinite <;> simp [hx, Option.filter] <;> rfl
        | some y =>
          cases hx : x.isFinite <;> cases hy : y.isFinite <;> simp [hx, hy, Option.filter] <;> rfl
    all_goals rfl
  all_goals rfl

/-- An option of a clock is put into effect as it is read. -/
theorem run_setClockOption (key value : String) (f : DrawFunction) :
    (setClockOption key value).run f =
      ((DrawSetting.parseClock key value).outcome,
        (DrawSetting.parseClock key value).change (apply byFunction) f) := by
  unfold setClockOption DrawSetting.parseClock
  cases Text.cutFirst '-' key.toList with
  | none => rfl
  | some pieces =>
    obtain ⟨name, rest⟩ := pieces
    dsimp only
    cases ClockKind.parse? (String.ofList name) with
    | none => rfl
    | some kind =>
      by_cases hrest : String.ofList rest = "trigger"
      · simp only [hrest, if_true]
        cases kind
        case path => rfl
        all_goals
          simp only [Option.filter, bne_iff_ne, ne_eq, reduceCtorEq, not_false_eq_true, if_true]
          generalize Trigger.parse? _ value = trigger
          cases trigger <;> rfl
      · simp only [hrest, if_false]
        cases kind
        case path => rfl
        all_goals
          simp only [Option.filter, bne_iff_ne, ne_eq, reduceCtorEq, not_false_eq_true, if_true,
            clock?, StateT.run_bind, StateT.run_get, Clock.run_setOption, Reading.outcome_map]
          -- the clock is written back, whatever became of the option
          cases ClockSetting.parse (String.ofList rest) value <;> rfl

/-- What a reading does to the function alone, it does beside the layers, unless it cuts the
page. -/
theorem run_besideLayers {action : StateM DrawFunction Outcome} {r : Reading DrawSetting}
    {f : DrawFunction} (h : action.run f = (r.outcome, r.change (apply byFunction) f))
    (hcrop : ∀ flag, r ≠ .setting (.crop flag)) (layers : List Layer) :
    (besideLayers action).run (f, layers) =
      (r.outcome, r.change
        (fun s (f, layers) => (apply byFunction s f, applyToLayers s f layers)) (f, layers)) := by
  have hrun : (besideLayers action).run (f, layers) =
      (r.outcome, r.change (apply byFunction) f, layers) := by
    change ((action.run f).1, (action.run f).2, layers) = _
    rw [h]
  rw [hrun]
  cases r with
  | setting s =>
    cases s with
    | crop flag => exact absurd rfl (hcrop flag)
    | _ => rfl
  | unknown => rfl
  | malformed => rfl

/-- Branch by branch, an option of a draw function does what it is read as, on the function and on
the layers. -/
theorem set_eq (byFunction : Bool) (key value : String) (f : DrawFunction) (layers : List Layer) :
    f.set byFunction key value layers =
      ((DrawSetting.parse key value).outcome,
        (DrawSetting.parse key value).change
          (fun s (f, layers) => (apply byFunction s f, applyToLayers s f layers)) (f, layers)) := by
  unfold set setOption DrawSetting.parse
  split
  case h_1 | h_2 => cases FunctionKind.parse? value <;> rfl
  case h_3 | h_4 =>
    refine run_besideLayers (run_setOrigin value f) (fun flag => ?_) layers
    cases DrawSetting.parseOrigin? value <;> simp [Reading.ofOption]
  case h_5 | h_6 =>
    refine run_besideLayers ?_ (fun flag => ?_) layers
    · unfold DrawSetting.parseRasterize?
      split <;> rfl
    · cases DrawSetting.parseRasterize? value <;> simp [Reading.ofOption]
  case h_7 | h_8 =>
    cases parseFlag? value with
    | none => rfl
    | some crop =>
      -- a function without layers marks none
      obtain ⟨header, members⟩ := f
      cases members <;> rfl
  case h_9 | h_10 =>
    refine run_besideLayers ?_ (fun flag => ?_) layers
    · unfold DrawSetting.parseAnimation?
      cases hname : (Identifier.ofText value).isEmpty <;> simp only [hname] <;> rfl
    · cases DrawSetting.parseAnimation? value <;> simp [Reading.ofOption]
  case h_11 | h_12 =>
    refine run_besideLayers ?_ (fun flag => ?_) layers
    · unfold DrawSetting.parseOrientation?
      split
      case h_5 other => 
        rw [Decimal.readFinite?]
        cases Decimal.readFloat? (Text.lower value) with
        | none => rfl
        | some degrees => cases h : degrees.isFinite <;> simp [h, Option.filter] <;> rfl
      all_goals rfl
    · cases DrawSetting.parseOrientation? value <;> simp [Reading.ofOption]
  case h_13 =>
    refine run_besideLayers (run_setClockOption key value f) (fun flag hread => ?_) layers
    -- an option of a clock is a trigger or a setting of the clock
    obtain ⟨_, _, _, -, -, -, ⟨-, _, -, heq⟩ | ⟨-, _, -, heq⟩⟩ :=
      DrawSetting.cases_of_parseClock hread
    all_goals cases heq

/-- What holds of a function and the layers, and is kept by the setting that an option is read as,
holds after the option. -/
theorem set_induction {P : DrawFunction × List Layer → Prop} {key value : String}
    {f : DrawFunction} {layers : List Layer} (h : P (f, layers))
    (hsetting : ∀ s, DrawSetting.parse key value = .setting s →
      P (apply byFunction s f, applyToLayers s f layers)) :
    P (f.set byFunction key value layers).2 := by
  simp only [set_eq]
  exact Reading.change_induction h fun s hread => hsetting s hread

end DrawFunction

namespace MotionFunction

/-- Branch by branch, an option of an animation function does what it is read as. -/
theorem set_eq (key value : String) (f : MotionFunction) :
    f.set key value =
      ((MotionSetting.parse key value).outcome,
        (MotionSetting.parse key value).change apply f) := by
  unfold set setOption
  by_cases hkind : key = "type" ∨ key = "t"
  · have hread : MotionSetting.parse key value =
        .ofOption ((FunctionKind.parse? value).map .kind) := by
      rcases hkind with rfl | rfl <;> rfl
    simp only [hkind, if_true, hread]
    cases FunctionKind.parse? value <;> rfl
  obtain ⟨htype, ht⟩ := not_or.mp hkind
  simp only [hkind, if_false, MotionSetting.parse]
  by_cases htrigger : MotionSetting.clockKey key = "trigger"
  · simp only [htrigger, if_true]
    cases Trigger.parse? .path value <;> rfl
  · simp only [htrigger, if_false, StateT.run_bind, StateT.run_get, Clock.run_setOption,
      Reading.outcome_map]
    -- the clock is written back, whatever became of the option
    cases ClockSetting.parse (MotionSetting.clockKey key) value <;> rfl

/-- What holds of an animation function, and is kept by the setting that an option is read as, holds
after the option. -/
theorem set_induction {P : MotionFunction → Prop} {key value : String} {f : MotionFunction}
    (h : P f) (hsetting : ∀ s, MotionSetting.parse key value = .setting s → P (apply s f)) :
    P (f.set key value).2 := by
  rw [set_eq]
  exact Reading.change_induction h hsetting

end MotionFunction

end ArtCanvas
