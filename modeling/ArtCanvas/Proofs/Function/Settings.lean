import ArtCanvas.Function.DrawSetting
import ArtCanvas.Function.Motion
import ArtCanvas.Proofs.Clock.Fields

/-!
# What settings change of functions

A setting changes one part of a function, and the setting that cuts the page marks a layer as well.
So settings of different parts can change places. The parts of the clocks are their fields, which
can change places although any of them may wake the clock.

* `DrawPart`, `DrawSetting.part`, `MotionPart`, `MotionSetting.part`: the parts that are set.
* `DrawSetting.cases_of_parseClock`: what an option of a clock of a draw function is read as.
* `DrawFunction.layers_apply`, `DrawFunction.features_apply`, `DrawFunction.crop_apply`: what
  settings leave alone.
* `DrawFunction.apply_comm`, `DrawFunction.applyToLayers_comm`, `MotionFunction.apply_comm`:
  settings of different parts can change places.
-/

namespace ArtCanvas

/-- The parts of a draw function that options set. -/
inductive DrawPart where
  | kind
  | origin
  | image
  | crop
  | animation
  | orientation
  /-- A field of one of the clocks. -/
  | clock (kind : ClockKind) (field : ClockField)
  /-- The list of triggers, whichever clocks these drive. -/
  | triggers
  deriving DecidableEq, Repr

/-- The part that is set. -/
def DrawSetting.part : DrawSetting → DrawPart
  | .kind _ => .kind
  | .origin _ => .origin
  | .rasterize _ => .image
  | .crop _ => .crop
  | .animation _ => .animation
  | .orientation _ => .orientation
  | .clock target setting => .clock target setting.field
  | .trigger _ => .triggers

/-- The parts of an animation function that options set. -/
inductive MotionPart where
  | kind
  /-- A field of the clock. -/
  | clock (field : ClockField)
  /-- The list of triggers. -/
  | triggers
  deriving DecidableEq, Repr

/-- The part that is set. -/
def MotionSetting.part : MotionSetting → MotionPart
  | .kind _ => .kind
  | .clock setting => .clock setting.field
  | .trigger _ => .triggers

/-! ### Reading options -/

/-- An option that names a clock is a trigger for this clock or a setting of it, and the clock is
not the one for progress along a path. -/
theorem DrawSetting.cases_of_parseClock {key value : String} {s : DrawSetting}
    (h : parseClock key value = .setting s) :
    ∃ name rest target, Text.cutFirst '-' key.toList = some (name, rest) ∧
      ClockKind.parse? (String.ofList name) = some target ∧ target ≠ .path ∧
      ((String.ofList rest = "trigger" ∧
          ∃ t, Trigger.parse? target value = some t ∧ .trigger t = s) ∨
        (String.ofList rest ≠ "trigger" ∧
          ∃ setting, ClockSetting.parse (String.ofList rest) value = .setting setting ∧
            .clock target setting = s)) := by
  unfold parseClock at h
  split at h
  · cases h
  next name rest hcut =>
    split at h
    · cases h
    · cases h
    next target hpath hkind =>
      refine ⟨name, rest, target, hcut, hkind, hpath, ?_⟩
      dsimp only at h
      split at h
      next htrigger => exact .inl ⟨htrigger, Reading.ofOption_map_eq_setting_iff.mp h⟩
      next htrigger => exact .inr ⟨htrigger, Reading.map_eq_setting_iff.mp h⟩

namespace DrawFunction

variable {byFunction : Bool} {s s' : DrawSetting} {f : DrawFunction} {layers : List Layer}

/-! ### What settings leave alone -/

theorem layers_apply (byFunction : Bool) (s : DrawSetting) (f : DrawFunction) :
    (apply byFunction s f).layers = f.layers := by
  cases s with
  | clock kind setting => cases kind <;> rfl
  | origin anchor => cases anchor <;> rfl
  | _ => rfl

theorem features_apply (byFunction : Bool) (s : DrawSetting) (f : DrawFunction) :
    (apply byFunction s f).features = f.features := by
  cases s with
  | clock kind setting => cases kind <;> rfl
  | origin anchor => cases anchor <;> rfl
  | _ => rfl

theorem crop_apply (h : s.part ≠ .crop) : (apply byFunction s f).crop = f.crop := by
  cases s with
  | crop flag => exact absurd rfl h
  | clock kind setting => cases kind <;> rfl
  | origin anchor => cases anchor <;> rfl
  | _ => rfl

/-- Only the setting that cuts the page marks a layer. -/
theorem applyToLayers_eq (h : s.part ≠ .crop) : applyToLayers s f layers = layers := by
  cases s with
  | crop flag => exact absurd rfl h
  | _ => rfl

theorem applyToLayers_crop {first : Nat} {rest : List Nat} (h : f.layers = first :: rest)
    (flag : Bool) (layers : List Layer) :
    applyToLayers (.crop flag) f layers =
      layers.modify first fun layer => { layer with crop := flag } := by
  unfold applyToLayers
  rw [h]

/-- Which layer is marked does not depend on any setting. -/
theorem applyToLayers_apply (s' : DrawSetting) :
    applyToLayers s (apply byFunction s' f) layers = applyToLayers s f layers := by
  unfold applyToLayers
  rw [layers_apply]

/-! ### The order of settings -/

theorem modifyClock_comm {kind kind' : ClockKind} {g g' : Clock Float → Clock Float}
    (h : kind = kind' → ∀ c, g (g' c) = g' (g c)) (f : DrawFunction) :
    (f.modifyClock kind' g').modifyClock kind g = (f.modifyClock kind g).modifyClock kind' g' := by
  cases kind <;> cases kind' <;> simp [modifyClock, h]

/-- The origin can be set before or after all else. -/
theorem apply_origin_comm (h : s.part ≠ .origin) (anchor : Option (Float × Float)) :
    apply byFunction s (apply byFunction (.origin anchor) f) =
      apply byFunction (.origin anchor) (apply byFunction s f) := by
  cases s with
  | origin _ => exact absurd rfl h
  | clock kind setting => cases kind <;> cases anchor <;> rfl
  | _ => cases anchor <;> rfl

/-- A field of a clock can be set before or after all else. -/
theorem apply_clock_comm {kind : ClockKind} {setting : ClockSetting}
    (h : s.part ≠ .clock kind setting.field) :
    apply byFunction s (apply byFunction (.clock kind setting) f) =
      apply byFunction (.clock kind setting) (apply byFunction s f) := by
  cases s with
  | clock kind' setting' =>
    refine modifyClock_comm (fun hkind => Clock.apply_comm fun hfield => h ?_) f
    rw [DrawSetting.part, hkind, hfield]
  | origin anchor => exact (apply_origin_comm (by simp [DrawSetting.part]) anchor).symm
  | _ => cases kind <;> rfl

/-- Settings of different parts can change places. -/
theorem apply_comm (h : s.part ≠ s'.part) :
    apply byFunction s (apply byFunction s' f) = apply byFunction s' (apply byFunction s f) := by
  cases s' with
  | origin anchor => exact apply_origin_comm h anchor
  | clock kind setting => exact apply_clock_comm h
  | _ =>
    cases s with
    | origin anchor => exact (apply_origin_comm h.symm anchor).symm
    | clock kind setting => exact (apply_clock_comm h.symm).symm
    | _ => first | rfl | exact absurd rfl h

/-- Settings of different parts can change places on the layers, too. -/
theorem applyToLayers_comm (h : s.part ≠ s'.part) :
    applyToLayers s (apply byFunction s' f) (applyToLayers s' f layers) =
      applyToLayers s' (apply byFunction s f) (applyToLayers s f layers) := by
  rw [applyToLayers_apply, applyToLayers_apply]
  by_cases hs : s.part = .crop
  · have hs' : s'.part ≠ .crop := fun hs' => h (hs.trans hs'.symm)
    rw [applyToLayers_eq hs', applyToLayers_eq hs']
  · rw [applyToLayers_eq hs, applyToLayers_eq hs]

end DrawFunction

/-- Settings of different parts can change places. -/
theorem MotionFunction.apply_comm {s s' : MotionSetting} (h : s.part ≠ s'.part)
    (f : MotionFunction) : apply s (apply s' f) = apply s' (apply s f) := by
  cases s with
  | clock setting =>
    cases s' with
    | clock setting' =>
      have hfield : setting.field ≠ setting'.field := fun heq => h (congrArg MotionPart.clock heq)
      change { f with pathClock := Clock.apply setting (Clock.apply setting' f.pathClock) } =
        { f with pathClock := Clock.apply setting' (Clock.apply setting f.pathClock) }
      rw [Clock.apply_comm hfield]
    | _ => rfl
  | kind kind => rfl
  | trigger trigger => cases s' <;> first | rfl | exact absurd rfl h

end ArtCanvas
