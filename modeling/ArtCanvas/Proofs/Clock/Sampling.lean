import ArtCanvas.Proofs.Scalar.Exact
import ArtCanvas.Clock.Basic

/-!
# What a clock shows, exactly

With exact numbers, what a clock shows is told by three things: the run it is in, the part of that
run that has passed, and whether all runs are over. The number of a run has an end in samples
(`Clock.lastIteration`) and none here.

* `Clock.fullRuns`, `Clock.IsOver`: the runs that fit into the time, and whether they are enough.
* `Clock.runIndex`, `Clock.passed`: the run, and the part of it that has passed.
* `Clock.reportedRun`: the run by the number that samples give it.
* `Clock.sampleOf`: what is shown where a part of a run has passed.
* `Clock.sample_eq_sampleOf`: samples in these terms.
* `Clock.shown`: what an active clock shows, and `Clock.sample_eq`: samples are that.
* `Clock.shown_of_isOver`: once all runs are over, what is shown stays.
-/

namespace ArtCanvas

namespace Direction

variable {d : Direction}

/-- Only running forward has a positive sign. -/
theorem sign_eq_one : d.sign = 1 ↔ d = .forward := by
  cases d <;> decide

/-- Only running backward has a negative one. -/
theorem sign_eq_neg_one : d.sign = -1 ↔ d = .backward := by
  cases d <;> decide

/-- Reversing turns the sign around. -/
theorem sign_reversed : d.reversed.sign = -d.sign := by
  cases d <;> rfl

end Direction

namespace Clock

/-- Every other run goes the other way, if runs do. -/
theorem directionIn_eq {α : Type} (c : Clock α) (k : ℕ) :
    c.directionIn k =
      if c.reverses = true ∧ k % 2 = 1 then c.direction.reversed else c.direction := by
  simp only [directionIn, Bool.and_eq_true, beq_iff_eq]

/-- In odd runs of a clock that swings the sign is turned around. -/
theorem sign_directionIn {α : Type} (c : Clock α) (k : ℕ) :
    (c.directionIn k).sign =
      if c.reverses = true ∧ k % 2 = 1 then -c.direction.sign else c.direction.sign := by
  rw [directionIn_eq, apply_ite Direction.sign, Direction.sign_reversed]

variable {α : Type} [ExactScalar α] {c : Clock α} {elapsed elapsed' : α}

/-! ### The run and the part of it -/

/-- How many full runs fit into the time since the clock was started. -/
def fullRuns (c : Clock α) (elapsed : α) : ℕ := ⌊c.progress elapsed⌋₊

/-- All runs of the clock are over. -/
def IsOver (c : Clock α) (elapsed : α) : Prop :=
  c.iterations ≠ 0 ∧ c.iterations ≤ c.fullRuns elapsed

/-- Whether a clock is over is a question of comparing numbers. -/
instance : Decidable (c.IsOver elapsed) := inferInstanceAs (Decidable (_ ∧ _))

/-- How many runs the clock has completed. -/
def completedRuns (c : Clock α) (elapsed : α) : ℕ :=
  if c.iterations = 0 then c.fullRuns elapsed else min (c.fullRuns elapsed) c.iterations

/-- The number of the run that the clock is in; the last run is not left. -/
def runIndex (c : Clock α) (elapsed : α) : ℕ :=
  if c.IsOver elapsed then c.iterations - 1 else c.fullRuns elapsed

/-- The number of the run in samples, which tell no runs apart after the last number. -/
def reportedRun (c : Clock α) (elapsed : α) : ℕ :=
  if c.IsOver elapsed then c.iterations - 1 else min (c.fullRuns elapsed) lastIteration

/-- The part of the run that has passed. -/
def passed (c : Clock α) (elapsed : α) : α :=
  if c.IsOver elapsed then 1 else Int.fract (c.progress elapsed)

/-- What the clock shows where a part of a run has passed. -/
def sampleOf (ease : Easing → α → α) (c : Clock α) (iteration : ℕ) (passed : α)
    (finished : Bool) : ClockSample α :=
  let direction := c.directionIn iteration
  let t := if direction = .backward then 1 - passed else passed
  { iteration, t, direction, value := c.valueAt ease t, finished }

/-- What an active clock shows, with its runs counted without end. -/
def shown (ease : Easing → α → α) (c : Clock α) (elapsed : α) : ClockSample α :=
  c.sampleOf ease (c.runIndex elapsed) (c.passed elapsed) (decide (c.IsOver elapsed))

/-! ### Progress -/

/-- How many durations have passed since the delay. -/
theorem progress_eq (c : Clock α) (elapsed : α) :
    c.progress elapsed = max 0 ((elapsed - c.delay) / c.duration) := by
  rw [max_comm, progress, ExactScalar.greater_eq]
  norm_num

/-- No clock has run less than not at all. -/
theorem progress_nonneg (c : Clock α) (elapsed : α) : 0 ≤ c.progress elapsed := by
  rw [progress_eq]
  exact le_max_left _ _

/-- Progress never goes back. -/
theorem progress_mono (hduration : 0 < c.duration) (h : elapsed ≤ elapsed') :
    c.progress elapsed ≤ c.progress elapsed' := by
  rw [progress_eq, progress_eq]
  gcongr

/-- Nor does the number of full runs. -/
theorem fullRuns_mono (hduration : 0 < c.duration) (h : elapsed ≤ elapsed') :
    c.fullRuns elapsed ≤ c.fullRuns elapsed' :=
  Nat.floor_le_floor (progress_mono hduration h)

/-- The full runs are the whole part of the progress. -/
theorem cast_fullRuns (c : Clock α) (elapsed : α) :
    (c.fullRuns elapsed : α) = ⌊c.progress elapsed⌋ :=
  natCast_floor_eq_intCast_floor (progress_nonneg c elapsed)

/-- A clock that is over stays over. -/
theorem IsOver.mono (hduration : 0 < c.duration) (h : elapsed ≤ elapsed')
    (hover : c.IsOver elapsed) : c.IsOver elapsed' :=
  ⟨hover.1, hover.2.trans (fullRuns_mono hduration h)⟩

/-- Until a clock is over, all its full runs count. -/
theorem completedRuns_of_not_isOver (h : ¬c.IsOver elapsed) :
    c.completedRuns elapsed = c.fullRuns elapsed := by
  unfold completedRuns
  split_ifs with hzero
  · rfl
  · exact min_eq_left (not_le.mp fun hle => h ⟨hzero, hle⟩).le

/-! ### Samples -/

/-- The test of the code finds out whether a clock is over. -/
theorem decide_isOver (c : Clock α) (elapsed : α) :
    (decide (c.iterations ≠ 0) && decide (Scalar.ofNat c.iterations ≤
      Scalar.floor (c.progress elapsed))) = decide (c.IsOver elapsed) := by
  rw [← Bool.decide_and, ExactScalar.ofNat_eq, ExactScalar.floor_eq, ← cast_fullRuns]
  exact decide_eq_decide.mpr (and_congr_right' Nat.cast_le)

/-- A sample of an active clock, told by its run. -/
theorem sample_eq_sampleOf (ease : Easing → α → α) (hactive : c.isActive) (elapsed : α) :
    c.sample ease elapsed = c.sampleOf ease (c.reportedRun elapsed) (c.passed elapsed)
      (decide (c.IsOver elapsed)) := by
  rw [sample, if_pos hactive, sampleActive, decide_isOver, ExactScalar.toNat_floor]
  simp only [decide_eq_true_eq, ExactScalar.one_eq]
  rfl

/-- While runs can be counted, the reported one is the one at hand. -/
theorem reportedRun_eq_runIndex (hfit : c.completedRuns elapsed ≤ lastIteration) :
    c.reportedRun elapsed = c.runIndex elapsed := by
  by_cases hover : c.IsOver elapsed
  · simp only [reportedRun, runIndex, hover, if_true]
  · simpa [reportedRun, runIndex, hover, completedRuns_of_not_isOver hover] using hfit

/-- A clock that has completed no more runs than are told apart shows what it shows in its run. -/
theorem sample_eq (ease : Easing → α → α) (hactive : c.isActive)
    (hfit : c.completedRuns elapsed ≤ lastIteration) :
    c.sample ease elapsed = c.shown ease elapsed := by
  rw [sample_eq_sampleOf ease hactive, reportedRun_eq_runIndex hfit, shown]

/-- Once all runs are over, what is shown stays. -/
theorem shown_of_isOver (ease : Easing → α → α) (hduration : 0 < c.duration)
    (h : elapsed ≤ elapsed') (hover : c.IsOver elapsed) :
    c.shown ease elapsed' = c.shown ease elapsed := by
  simp only [shown, runIndex, passed, hover, hover.mono hduration h, if_true]

end Clock

end ArtCanvas
