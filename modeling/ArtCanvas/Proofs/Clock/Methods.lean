import ArtCanvas.Proofs.Clock.Execution
import ArtCanvas.Proofs.Clock.Program
import ArtCanvas.Proofs.Clock.Sampling

/-!
# What the methods of a clock do

A clock of a script is made, started and brought up to date. This module says what each of these
does to a clock, in the terms in which samples are told: the run that the clock is in, the part of
it that has passed, and whether all runs are over.

* `ClockCode.Object.Configured`: the object has the settings of a clock.
* `ClockCode.Object.Fresh`, `ClockCode.Object.Running`: it has not been started, or runs since a
  time.
* `ClockCode.fresh_make`, `ClockCode.Object.Fresh.running_start`: a new clock is fresh, and runs
  once it is started.
* `ClockCode.Object.Running.run_update`: an update lets a running clock show what it should, and
  lets it run unless all runs are over.
* `ClockCode.Object.run_update_of_isFinished`: after that, updates leave it alone.
-/

namespace ArtCanvas

variable {α : Type} [ExactScalar α] {ease : Easing → α → α} {c : Clock α}

/-- What a clock of a script is made with, in the order of its literal. -/
def Clock.given (ease : Easing → α → α) (c : Clock α) : List (ClockCode.Value α) :=
  [.num c.duration, .num c.delay, .num c.direction.sign, .flag c.reverses, .num c.iterations,
    .curve (ease c.easing), .num c.range, .num c.multiplier, .num c.offset]

namespace ClockCode

/-! ### Clocks with settings -/

namespace Object

/-- The object has the settings of a clock. -/
@[mk_iff]
structure Configured (o : Object α) (ease : Easing → α → α) (c : Clock α) : Prop where
  duration : o.num .duration = c.duration
  delay : o.num .delay = c.delay
  iterations : o.num .iterations = c.iterations
  span : o.num .span = c.range * c.multiplier
  base : o.num .base = c.range * c.offset
  baseDirection : o.num .baseDirection = c.direction.sign
  reverses : o.flag .reverses = c.reverses
  timing : o.timing = ease c.easing

/-- The object is a clock that has not been started. -/
@[mk_iff]
structure Fresh (o : Object α) (ease : Easing → α → α) (c : Clock α) : Prop
    extends o.Configured ease c where
  startTime : o.num .startTime = 0
  stopTime : o.num .stopTime = 0
  resting : o.flag .isRunning = false
  unfinished : o.flag .isFinished = false
  value : o.num .value = c.initialValue ease

/-- The object is a clock that runs since a time. -/
@[mk_iff]
structure Running (o : Object α) (ease : Easing → α → α) (c : Clock α) (since : α) : Prop
    extends o.Configured ease c where
  startTime : o.num .startTime = since
  running : o.flag .isRunning = true
  unfinished : o.flag .isFinished = false

/-- The object shows a sample. -/
structure Shows (o : Object α) (s : ClockSample α) : Prop where
  value : o.num .value = s.value
  t : o.num .t = s.t
  iteration : o.num .i = s.iteration
  direction : o.num .d = s.direction.sign
  finished : o.flag .isFinished = s.finished

end Object

/-- The fields that a running clock changes. -/
abbrev NumField.moving : List NumField := [.startTime, .stopTime, .d, .t, .i, .value]

section Settings

variable {s : Frame α}

@[simp]
theorem configured_setNum {f : NumField} {a : α} (hf : f ∈ NumField.moving) :
    (s.setNum f a).Configured ease c ↔ s.Configured ease c := by
  have hnum (g : NumField) (hg : g ∉ NumField.moving) : (s.setNum f a).num g = s.num g := by
    rw [Frame.setNum_num, if_neg]
    rintro rfl
    exact hg hf
  rw [Object.configured_iff, Object.configured_iff, hnum .duration (by decide),
    hnum .delay (by decide), hnum .iterations (by decide), hnum .span (by decide),
    hnum .base (by decide), hnum .baseDirection (by decide), Frame.setNum_flag,
    Frame.setNum_timing]

@[simp]
theorem configured_setFlag {f : FlagField} {b : Bool} (hf : f ≠ .reverses) :
    (s.setFlag f b).Configured ease c ↔ s.Configured ease c := by
  rw [Object.configured_iff, Object.configured_iff, Frame.setFlag_num, Frame.setFlag_flag,
    if_neg hf.symm, Frame.setFlag_timing]

end Settings

/-! ### Making and starting -/

/-- A new clock has the settings that it was made with, and shows its first value. -/
theorem fresh_make (ease : Easing → α → α) (c : Clock α) (blank : Frame α) (watch : α) :
    (program.make blank watch (c.given ease)).Fresh ease c := by
  simp [Object.fresh_iff, Object.configured_iff, ClassCode.make, program, Clock.given,
    Parameter.bind, FieldLine.fill, reset, Method.call, Num.shown, Clock.initialValue,
    Clock.valueAt, Direction.sign_eq_one, ExactScalar.zero_eq, ExactScalar.one_eq]

namespace Object.Fresh

variable {o : Object α} {since : α}

/-- A clock runs since it was started. -/
theorem running_start (h : o.Fresh ease c) : (o.run start since []).Running ease c since := by
  simp [running_iff, run, start, h.resting, h.unfinished, h.startTime, h.stopTime, h.toConfigured]

/-- A clock that was started shows what it showed before. -/
theorem value_start (h : o.Fresh ease c) :
    (o.run start since []).num .value = c.initialValue ease := by
  simp [run, start, h.resting, h.unfinished, h.value]

end Object.Fresh

/-! ### Updates -/

/-- The clock in a run, with the part of the run that has passed already in its place. -/
def Frame.settled (s : Frame α) (ease : Easing → α → α) (c : Clock α) (run : ℕ) : Frame α :=
  let direction := c.directionIn run
  let t := if direction = .backward then 1 - s.num .t else s.num .t
  (((s.setNum .i run).setNum .d direction.sign).setNum .t t).setNum .value (c.valueAt ease t)

section Settling

variable {s : Frame α} {watch since : α} {k : ℕ}

theorem execAll_settle (hset : s.Configured ease c) (hrun : s.var .iteration = k) :
    Stmt.execAll watch settle s = .next (s.settled ease c k) := by
  have hd : (if c.reverses = true ∧ k % 2 = 1 then -(c.direction.sign : α)
      else c.direction.sign) = (c.directionIn k).sign := by
    rw [Clock.sign_directionIn]
    split_ifs <;> push_cast <;> rfl
  have hback : ((c.directionIn k).sign : α) = -1 ↔ c.directionIn k = .backward := by
    rw [← Direction.sign_eq_neg_one]
    exact_mod_cast Iff.rfl
  by_cases h : c.directionIn k = .backward
  · -- the part of the run is turned around
    have hd' := hback.mpr h
    rw [h] at hd hd'
    simp [settle, Num.shown, Frame.settled, Clock.valueAt, hrun, remainder_two, hset.reverses,
      hset.baseDirection, hset.timing, hset.span, hset.base, hd, hd', h]
  · -- the part of the run is put back as it was
    have hd' := mt hback.mp h
    have hself : ((s.setNum .i k).setNum .d ((c.directionIn k).sign : α)).setNum .t (s.num .t) =
        (s.setNum .i k).setNum .d ((c.directionIn k).sign : α) := by
      simpa using ((s.setNum .i k).setNum .d ((c.directionIn k).sign : α)).setNum_self (f := .t)
    simp [settle, Num.shown, Frame.settled, Clock.valueAt, hrun, remainder_two, hset.reverses,
      hset.baseDirection, hset.timing, hset.span, hset.base, hd, hd', h, hself]

theorem shows_settled :
    (s.settled ease c k).Shows (c.sampleOf ease k (s.num .t) (s.flag .isFinished)) := by
  constructor <;> simp [Frame.settled, Clock.sampleOf]

theorem running_settled (h : s.Running ease c since) :
    (s.settled ease c k).Running ease c since := by
  simp [Frame.settled, Object.running_iff, h.toConfigured, h.startTime, h.running, h.unfinished]

end Settling

namespace Object

variable {o : Object α} {since : α}

/-- The first part of an update finds the run and the part of it that has passed. -/
theorem Running.execAll_advance (h : o.Running ease c since) (now watch : α) :
    ∃ s : Frame α, Stmt.execAll watch advance ⟨o, bound [(.now, now)]⟩ = .next s ∧
      s.Configured ease c ∧
      s.var .iteration = c.runIndex ((now - since) / 1000) ∧
      s.num .t = c.passed ((now - since) / 1000) ∧
      s.flag .isFinished = decide (c.IsOver ((now - since) / 1000)) ∧
      (¬c.IsOver ((now - since) / 1000) → s.Running ease c since) := by
  have hprogress : max 0 (((now - since) / 1000 - c.delay) / c.duration) =
      c.progress ((now - since) / 1000) :=
    (c.progress_eq _).symm
  have hiff : c.IsOver ((now - since) / 1000) ↔
      ¬c.iterations = 0 ∧ (c.iterations : α) ≤ ⌊c.progress ((now - since) / 1000)⌋ := by
    rw [Clock.IsOver, ← Clock.cast_fullRuns, Nat.cast_le]
  by_cases hover : c.IsOver ((now - since) / 1000)
  · -- the clock stops at the end of the last run
    obtain ⟨hsome, hle⟩ := hiff.mp hover
    have hpos : 1 ≤ c.iterations := Nat.one_le_iff_ne_zero.mpr hsome
    simp [advance, stop, Method.call, Test.working, bound, h.running, h.unfinished, h.startTime,
      h.delay, h.duration, h.iterations, h.toConfigured, hprogress, hsome, hle, hover,
      Clock.runIndex, Clock.passed, Nat.cast_sub hpos]
  · have hcond := mt hiff.mpr hover
    simp [advance, running_iff, bound, h.running, h.unfinished, h.startTime, h.delay, h.duration,
      h.iterations, h.toConfigured, hprogress, hcond, hover, Clock.runIndex, Clock.passed,
      Clock.cast_fullRuns]

/-- An update lets a running clock show what it should, and lets it run unless all runs are over. -/
theorem Running.run_update (h : o.Running ease c since) (now watch : α) :
    (o.run update watch [now]).Shows (c.shown ease ((now - since) / 1000)) ∧
      (¬c.IsOver ((now - since) / 1000) →
        (o.run update watch [now]).Running ease c since) := by
  obtain ⟨s, hexec, hset, hrun, hpart, hfinished, hrunning⟩ :=
    h.execAll_advance now watch
  have hbody : update.body = advance ++ settle := rfl
  have hbound : update.parameters.zip [now] = [(.now, now)] := rfl
  rw [run, hbody, hbound, Stmt.execAll_append, hexec, Flow.andThen_next,
    execAll_settle hset hrun, Flow.frame_next]
  refine ⟨?_, fun hover => running_settled (hrunning hover)⟩
  rw [Clock.shown, ← hpart, ← hfinished]
  exact shows_settled

/-- An update leaves a clock alone whose runs are all over. -/
theorem run_update_of_isFinished (h : o.flag .isFinished = true) (now watch : α) :
    o.run update watch [now] = o := by
  simp [run, update, advance, h]

end Object

end ClockCode

end ArtCanvas
