import Mathlib.Algebra.Order.Floor.Semiring
import ArtCanvas.Proofs.Clock.Sampling

/-!
# The course of a clock

What a clock shows from before its start to after its end: it holds its first value until the delay
is over, then goes through its runs, each in its direction, and comes to rest at the end of the last
one. The arithmetic is exact.

* `Clock.endTime`: when all runs are over, and `Clock.isOver_iff`: they are from then on.
* `Clock.reportedRun_lt`, `Clock.t_sampleOf_mem`: the runs that there are, and the time within one.
* `Clock.sample_of_le_delay`, `Clock.sample_of_isOver`: what is shown before and after all runs.
* `Clock.sample_course`: the course of a clock.
-/

namespace ArtCanvas.Clock

variable {α : Type} [ExactScalar α] {c : Clock α} {elapsed elapsed' : α}

/-- When all runs of the clock are over, if they ever are. -/
def endTime (c : Clock α) : α := c.delay + c.iterations * c.duration

/-! ### The end -/

/-- A positive number of runs fits into the time exactly if it takes no longer. -/
theorem le_fullRuns_iff (hduration : 0 < c.duration) {n : ℕ} (hn : 0 < n) :
    n ≤ c.fullRuns elapsed ↔ c.delay + n * c.duration ≤ elapsed := by
  have hpositive : ¬ (n : α) ≤ 0 := not_le.mpr (Nat.cast_pos.mpr hn)
  calc n ≤ c.fullRuns elapsed
      ↔ (n : α) ≤ max 0 ((elapsed - c.delay) / c.duration) := by
        rw [fullRuns, Nat.le_floor_iff (progress_nonneg c elapsed), progress_eq]
    _ ↔ (n : α) ≤ (elapsed - c.delay) / c.duration := by
        rw [le_max_iff, or_iff_right hpositive]
    _ ↔ c.delay + n * c.duration ≤ elapsed := by
        rw [le_div_iff₀ hduration, le_sub_iff_add_le']

/-- All runs are over from the end on, and never without an end. -/
theorem isOver_iff (hduration : 0 < c.duration) :
    c.IsOver elapsed ↔ 0 < c.iterations ∧ c.endTime ≤ elapsed := by
  rw [IsOver, ← Nat.pos_iff_ne_zero]
  exact and_congr_right fun hpos => le_fullRuns_iff hduration hpos

/-! ### The run -/

theorem passed_nonneg (c : Clock α) (elapsed : α) : 0 ≤ c.passed elapsed := by
  unfold passed
  split_ifs
  · exact zero_le_one
  · exact Int.fract_nonneg _

theorem passed_le_one (c : Clock α) (elapsed : α) : c.passed elapsed ≤ 1 := by
  unfold passed
  split_ifs
  · exact le_rfl
  · exact (Int.fract_lt_one _).le

/-- The runs are numbered from zero, so no number reaches their count. -/
theorem reportedRun_lt (hpos : 0 < c.iterations) : c.reportedRun elapsed < c.iterations := by
  unfold reportedRun
  split_ifs with hover
  · omega
  · have hlt : c.fullRuns elapsed < c.iterations :=
      not_le.mp fun hle => hover ⟨hpos.ne', hle⟩
    exact (min_le_left _ _).trans_lt hlt

/-! ### Samples -/

variable (ease : Easing → α → α)

/-- The time within a run stays within it, whichever way it is seen. -/
theorem t_sampleOf_mem {run : ℕ} {passed : α} (hnonneg : 0 ≤ passed) (hle : passed ≤ 1)
    (finished : Bool) :
    0 ≤ (c.sampleOf ease run passed finished).t ∧ (c.sampleOf ease run passed finished).t ≤ 1 := by
  unfold sampleOf
  dsimp only
  split_ifs
  · exact ⟨sub_nonneg.mpr hle, sub_le_self 1 hnonneg⟩
  · exact ⟨hnonneg, hle⟩

/-- Until the delay is over, the clock stands at the start of its first run. -/
theorem sample_of_le_delay (hactive : c.isActive) (hduration : 0 < c.duration)
    (h : elapsed ≤ c.delay) : c.sample ease elapsed = c.sampleOf ease 0 0 false := by
  have hprogress : c.progress elapsed = 0 := by
    rw [progress_eq, max_eq_left]
    exact div_nonpos_of_nonpos_of_nonneg (sub_nonpos.mpr h) hduration.le
  have hruns : c.fullRuns elapsed = 0 := by rw [fullRuns, hprogress, Nat.floor_zero]
  have hover : ¬ c.IsOver elapsed := fun hover => hover.1 (Nat.le_zero.mp (hruns ▸ hover.2))
  rw [sample_eq_sampleOf ease hactive, reportedRun, passed, if_neg hover, if_neg hover, hruns,
    hprogress, Int.fract_zero, decide_eq_false hover]
  rfl

/-- What a clock shows at the start of its first run is its first value. -/
theorem value_sampleOf_zero (hactive : c.isActive) (finished : Bool) :
    (c.sampleOf ease 0 0 finished).value = c.initialValue ease := by
  have hfirst : c.directionIn 0 = c.direction := by simp [directionIn]
  rw [sampleOf, initialValue, hfirst, ExactScalar.zero_eq, ExactScalar.one_eq]
  cases hdirection : c.direction with
  | idle => simp [isActive, hdirection] at hactive
  | forward => rfl
  | backward => simp

/-- Once all runs are over, samples stay as they are. -/
theorem sample_of_isOver (hactive : c.isActive) (hover : c.IsOver elapsed)
    (hover' : c.IsOver elapsed') : c.sample ease elapsed = c.sample ease elapsed' := by
  simp only [sample_eq_sampleOf ease hactive, reportedRun, passed, hover, hover', if_true]

/-- The course of a clock. At any time the part of the run that has passed lies between its ends,
and the run is one of those that there are; all runs are over exactly from the end on; every other
run goes the other way, if runs do. Until the delay is over the clock holds its first value, and
from the end on it shows what it shows there. -/
theorem sample_course (c : Clock α) (hactive : c.isActive) (hduration : 0 < c.duration) :
    (∀ elapsed,
      let s := c.sample ease elapsed
      (0 ≤ s.t ∧ s.t ≤ 1) ∧
      (0 < c.iterations → s.iteration < c.iterations) ∧
      (s.finished = true ↔
        0 < c.iterations ∧ c.delay + c.iterations * c.duration ≤ elapsed) ∧
      s.direction =
        (if c.reverses = true ∧ s.iteration % 2 = 1 then c.direction.reversed
          else c.direction) ∧
      (elapsed ≤ c.delay → s.value = c.initialValue ease)) ∧
    ∀ elapsed, 0 < c.iterations → c.delay + c.iterations * c.duration ≤ elapsed →
      c.sample ease elapsed = c.sample ease (c.delay + c.iterations * c.duration) := by
  refine ⟨fun elapsed => ?_, fun elapsed hpos hend => ?_⟩
  · intro s
    -- while the clock is active, its state is a sample of some run
    have hs : s = c.sampleOf ease (c.reportedRun elapsed) (c.passed elapsed)
        (decide (c.IsOver elapsed)) := sample_eq_sampleOf ease hactive elapsed
    refine ⟨?_, ?_, ?_, ?_, ?_⟩
    · rw [hs]
      exact t_sampleOf_mem ease (passed_nonneg c elapsed) (passed_le_one c elapsed) _
    · rw [hs]
      exact reportedRun_lt
    · rw [hs]
      exact decide_eq_true_iff.trans (isOver_iff hduration)
    · rw [hs]
      exact directionIn_eq c (c.reportedRun elapsed)
    · intro hle
      have hfirst : s = c.sampleOf ease 0 0 false :=
        sample_of_le_delay ease hactive hduration hle
      rw [hfirst]
      exact value_sampleOf_zero ease hactive false
  · have hover : c.IsOver elapsed := (isOver_iff hduration).mpr ⟨hpos, hend⟩
    have hover' : c.IsOver c.endTime := (isOver_iff hduration).mpr ⟨hpos, le_rfl⟩
    exact sample_of_isOver ease hactive hover hover'

/-- A clock that swings back and forth, three times in all, after a delay. -/
def swing : Clock ℚ where
  kind := .rotate
  duration := 2
  delay := 1
  direction := .backward
  reverses := true
  iterations := 3
  easing := .ease .quad .easeIn
  range := 6
  multiplier := 1 / 2
  offset := 1
  directionGiven := true

/-- The swing is at rest during its delay, goes forward in its second run, ends after the third one
at time 7, and is asked long after that. -/
theorem sample_course_swing :
    swing.isActive ∧ 0 < swing.duration ∧
      (swing.sample (fun _ t => t * t) (1 / 2)).value = 9 ∧
      (swing.sample (fun _ t => t * t) 4).direction = .forward ∧
      (swing.sample (fun _ t => t * t) 100).finished = true ∧
      swing.sample (fun _ t => t * t) 100 = swing.sample (fun _ t => t * t) 7 := by
  have hactive : swing.isActive := rfl
  have hduration : 0 < swing.duration := by decide
  obtain ⟨hcourse, hrest⟩ := sample_course (fun _ t => t * t) swing hactive hduration
  have hend : swing.delay + swing.iterations * swing.duration = 7 := by decide +kernel
  rw [hend] at hrest hcourse
  refine ⟨hactive, hduration, ?_, ?_, ?_, ?_⟩
  · rw [(hcourse (1 / 2)).2.2.2.2 (by decide +kernel)]
    decide +kernel
  · rw [(hcourse 4).2.2.2.1]
    decide +kernel
  · exact (hcourse 100).2.2.1.mpr ⟨by decide, by decide +kernel⟩
  · exact hrest 100 (by decide) (by decide +kernel)

end ArtCanvas.Clock
