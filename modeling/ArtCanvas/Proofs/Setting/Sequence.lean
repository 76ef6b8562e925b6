import ArtCanvas.Proofs.Setting.Reading
import Mathlib.Data.List.Basic

/-!
# Options one after the other

Clocks, draw functions and animation functions are set up by options, one after the other. Each goes
through the branches of its own keys, with checks, writes and early returns, and no branch writes
before it has checked. So an option that is refused leaves no trace: the object stays as it is, and
so does all that later options make of it.

* `Setter`: what an option does to an object. `Clock.setter`, `DrawFunction.setter` and
  `MotionFunction.setter` are the three of them.
* `Setter.setAll`: options one after the other, with a record of what becomes of each.
* `Setter.Reads`, `Setter.Reads.setAll_eq`: options do what they are read as; many of them do what
  their settings do.
* `Setter.Traceless`: options that are refused leave no trace.
* `Setter.refused_leaves_no_trace`: this is so for clocks, draw functions and animation functions.
-/

namespace ArtCanvas

/-- What an option, a key and a value, does to an object, and what becomes of the option. -/
def Setter (σ : Type) : Type := String × String → σ → Outcome × σ

/-- Options for a clock. -/
def Clock.setter : Setter (Clock Float) := fun option c => c.set option.1 option.2

/-- Options for a draw function, which may mark layers. -/
def DrawFunction.setter (byFunction : Bool) : Setter (DrawFunction × List Layer) :=
  fun option state => state.1.set byFunction option.1 option.2 state.2

/-- Options for an animation function. -/
def MotionFunction.setter : Setter MotionFunction := fun option f => f.set option.1 option.2

/-- The setting that an option is read as, if it is one. -/
def Reading.setting? {α : Type} : Reading α → Option α
  | .setting a => some a
  | .unknown | .malformed => none

theorem Reading.setting?_eq_some_iff {α : Type} {r : Reading α} {a : α} :
    r.setting? = some a ↔ r = .setting a := by
  cases r <;> simp [setting?]

/-- An option is a setting exactly if it is put into effect. -/
theorem Reading.isSome_setting? {α : Type} (r : Reading α) :
    r.setting?.isSome = decide (r.outcome = .applied) := by
  cases r <;> rfl

/-- Options with what became of each. -/
abbrev OptionRecord : Type := List ((String × String) × Outcome)

/-- The part of a record about options that were put into effect. -/
def OptionRecord.applied (record : OptionRecord) : OptionRecord :=
  record.filter fun entry => entry.2 = .applied

namespace Setter

variable {σ α : Type}

/-- Puts options into effect one after the other. -/
def setAll (set : Setter σ) : List (String × String) → σ → OptionRecord × σ
  | [], s => ([], s)
  | option :: options, s =>
    let (outcome, s) := set option s
    let (record, s) := setAll set options s
    ((option, outcome) :: record, s)

variable {set : Setter σ} {read : String × String → Reading α} {apply : α → σ → σ}

theorem setAll_cons (option : String × String) (options : List (String × String)) (s : σ) :
    set.setAll (option :: options) s =
      ((option, (set option s).1) :: (set.setAll options (set option s).2).1,
        (set.setAll options (set option s).2).2) := rfl

/-- The last one of some options finds the object as the others leave it. -/
theorem setAll_concat (options : List (String × String)) (option : String × String) (s : σ) :
    set.setAll (options ++ [option]) s =
      ((set.setAll options s).1 ++ [(option, (set option (set.setAll options s).2).1)],
        (set option (set.setAll options s).2).2) := by
  induction options generalizing s with
  | nil => rfl
  | cons first options ih =>
    rw [List.cons_append, setAll_cons, ih, setAll_cons]
    rfl

/-- An option does to an object what it is read as, and is read without a look at the object. -/
def Reads (set : Setter σ) (read : String × String → Reading α) (apply : α → σ → σ) : Prop :=
  ∀ option s, set option s = ((read option).outcome, (read option).change apply s)

/-- The branches of a clock do what is read. -/
theorem reads_clock :
    Clock.setter.Reads (fun option => ClockSetting.parse option.1 option.2) Clock.apply :=
  fun option c => c.set_eq option.1 option.2

/-- So do the branches of a draw function. -/
theorem reads_drawFunction (byFunction : Bool) :
    (DrawFunction.setter byFunction).Reads (fun option => DrawSetting.parse option.1 option.2)
      fun s state => (DrawFunction.apply byFunction s state.1,
        DrawFunction.applyToLayers s state.1 state.2) :=
  fun option state => DrawFunction.set_eq byFunction option.1 option.2 state.1 state.2

/-- And so do those of an animation function. -/
theorem reads_motionFunction :
    MotionFunction.setter.Reads (fun option => MotionSetting.parse option.1 option.2)
      MotionFunction.apply :=
  fun option f => MotionFunction.set_eq option.1 option.2 f

/-- Options do what their settings do, and what becomes of them is told by their reading alone. -/
theorem Reads.setAll_eq (h : set.Reads read apply) (options : List (String × String)) (s : σ) :
    set.setAll options s =
      (options.map fun option => (option, (read option).outcome),
        (options.filterMap fun option => (read option).setting?).foldl
          (fun s a => apply a s) s) := by
  -- the object changes on the way, which reading does not see
  induction options generalizing s with
  | nil => rfl
  | cons option options ih =>
    rw [setAll_cons, ih, h option s]
    cases hread : read option <;>
      simp [Reading.setting?, Reading.change, hread]

/-- Options that are refused leave no trace. -/
structure Traceless (set : Setter σ) : Prop where
  /-- An option that is refused leaves the object as it is. -/
  refused : ∀ option s, (set option s).1 ≠ .applied → (set option s).2 = s
  /-- Where the options that are refused are left out, all others are put into effect as before and
  lead to the same object. -/
  leftOut : ∀ options s,
    set.setAll ((set.setAll options s).1.applied.map Prod.fst) s =
      ((set.setAll options s).1.applied, (set.setAll options s).2)

/-- Options that do no more than they are read as leave no trace where they are no setting. -/
theorem Reads.traceless (h : set.Reads read apply) : set.Traceless where
  refused option s hrefused := by
    rw [h option s] at hrefused ⊢
    cases hread : read option with
    | setting a => exact absurd (by rw [hread]; rfl) hrefused
    | unknown => rfl
    | malformed => rfl
  leftOut options s := by
    -- what is read as a setting does not depend on the options beside it
    have happlied : (set.setAll options s).1.applied =
        (options.filter fun option => (read option).setting?.isSome).map fun option =>
          (option, (read option).outcome) := by
      simp only [h.setAll_eq, OptionRecord.applied, List.filter_map, Reading.isSome_setting?]
      rfl
    have hsettings : (options.filter fun option => (read option).setting?.isSome).filterMap
        (fun option => (read option).setting?) =
          options.filterMap fun option => (read option).setting? := by
      rw [List.filterMap_filter]
      refine List.filterMap_congr fun option _ => ?_
      cases (read option).setting? <;> simp
    rw [happlied, List.map_map, h.setAll_eq, h.setAll_eq]
    simp only [Function.comp_def, List.map_id', hsettings]

/-- Options that are refused leave no trace, on clocks, on draw functions with the layers that they
may mark, and on animation functions, whatever state these are in. -/
theorem refused_leaves_no_trace :
    Clock.setter.Traceless ∧ (∀ byFunction, (DrawFunction.setter byFunction).Traceless) ∧
      MotionFunction.setter.Traceless :=
  ⟨reads_clock.traceless, fun byFunction => (reads_drawFunction byFunction).traceless,
    reads_motionFunction.traceless⟩

/-- Options that are refused do not even wake a clock. -/
example :
    let (record, c) := Clock.setter.setAll
      [("duration", "-1"), ("speed", "2"), ("direction", "up")] (Clock.ofKind .rotate)
    record.map Prod.snd = [.malformed, .unknown, .malformed] ∧ c.direction = .idle := by
  decide +kernel

end Setter

end ArtCanvas
