import Mathlib.Data.List.Induction
import ArtCanvas.Proofs.Clock.Methods

/-!
# Clocks in scripts

A clock of a script is an object that is brought up to date again and again, and that halts once all
its runs are over. A clock that a script is made from has a formula for what it shows. With exact
numbers, and one curve on both sides, the object shows what the formula says.

* `ClockCode.Object.updates`: a clock of a script after some updates.
* `ClockCode.Object.Follows`: the clock shows what it should at a time. An update keeps this
  (`ClockCode.Object.Follows.run_update`), and so do many (`ClockCode.Object.Running.updates`).
* `ClockCode.program_agrees`: the clock shows what its samples say.
-/

namespace ArtCanvas.ClockCode

variable {α : Type} [ExactScalar α] {ease : Easing → α → α} {c : Clock α}

/-- A call of the update. -/
structure Tick (α : Type) where
  /-- The time that the update is given, in milliseconds. -/
  now : α
  /-- What the watch of the host shows meanwhile. -/
  watch : α

namespace Object

variable {o : Object α} {since earlier now watch : α}

/-- A clock after updates. -/
def updates (o : Object α) (ticks : List (Tick α)) : Object α :=
  ticks.foldl (fun o tick => o.run update tick.watch [tick.now]) o

theorem updates_concat {ticks : List (Tick α)} {tick : Tick α} :
    o.updates (ticks ++ [tick]) = (o.updates ticks).run update tick.watch [tick.now] := by
  rw [updates, List.foldl_append]
  rfl

/-- The clock shows what it should at a time, and runs unless all runs are over. -/
structure Follows (o : Object α) (ease : Easing → α → α) (c : Clock α) (since now : α) : Prop where
  shows : o.Shows (c.shown ease ((now - since) / 1000))
  running : ¬c.IsOver ((now - since) / 1000) → o.Running ease c since

/-- An update of a clock that shows what it should lets it do so at the new time. -/
theorem Follows.run_update (hduration : 0 < c.duration) (h : o.Follows ease c since earlier)
    (hle : earlier ≤ now) : (o.run update watch [now]).Follows ease c since now := by
  by_cases hover : c.IsOver ((earlier - since) / 1000)
  · -- The clock has halted, and samples stay as they are from then on.
    have helapsed : (earlier - since) / 1000 ≤ (now - since) / 1000 := by gcongr
    have hfinished : o.flag .isFinished = true :=
      h.shows.finished.trans (decide_eq_true hover)
    rw [run_update_of_isFinished hfinished]
    refine ⟨?_, fun hnot => absurd (hover.mono hduration helapsed) hnot⟩
    rw [Clock.shown_of_isOver ease hduration helapsed hover]
    exact h.shows
  · obtain ⟨hshows, hrunning⟩ := (h.running hover).run_update now watch
    exact ⟨hshows, hrunning⟩

/-- A running clock shows what it should at the last of some updates. -/
theorem Running.updates (hduration : 0 < c.duration) (h : o.Running ease c since)
    (ticks : List (Tick α)) (last : Tick α)
    (hsorted : ((ticks ++ [last]).map Tick.now).Pairwise (· ≤ ·)) :
    (o.updates (ticks ++ [last])).Follows ease c since last.now := by
  induction ticks using List.reverseRecOn generalizing last with
  | nil =>
    obtain ⟨hshows, hrunning⟩ := h.run_update last.now last.watch
    exact ⟨hshows, hrunning⟩
  | append_singleton ticks tick ih =>
    rw [List.map_append, List.pairwise_append] at hsorted
    obtain ⟨hbefore, -, hlast⟩ := hsorted
    have hle : tick.now ≤ last.now := hlast _ (by simp) _ (by simp)
    rw [updates_concat]
    exact (ih tick hbefore).run_update hduration hle

end Object

/-- The clocks of scripts and their formula agree. A clock of a script that is made as `c` says,
started once and then brought up to date any number of times, in the order of time, shows what `c`
shows, as long as no more runs are completed than samples tell apart; and it holds the first value
of `c` before. -/
theorem program_agrees (ease : Easing → α → α) (c : Clock α) (hactive : c.isActive)
    (hduration : 0 < c.duration) (blank : Frame α) (watch since : α) :
    let made := program.make blank watch (c.given ease)
    let started := made.run start since []
    program.lines = Runtime.clockClass.body ∧ made.num .value = c.initialValue ease ∧
      started.num .value = c.initialValue ease ∧
      ∀ (ticks : List (Tick α)) (elapsed : α), (ticks.map Tick.now).Pairwise (· ≤ ·) →
        (ticks.map Tick.now).getLast? = some (since + elapsed * 1000) →
        c.completedRuns elapsed ≤ Clock.lastIteration →
        (started.updates ticks).Shows (c.sample ease elapsed) := by
  intro made started
  have hfresh : made.Fresh ease c := fresh_make ease c blank watch
  have hrunning : started.Running ease c since := hfresh.running_start
  refine ⟨lines_program, hfresh.value, hfresh.value_start,
    fun ticks elapsed hsorted hlast hfit => ?_⟩
  rw [List.getLast?_map, Option.map_eq_some_iff] at hlast
  obtain ⟨last, hlast, hnow⟩ := hlast
  -- only the last tick shows; the earlier ones keep the object running
  obtain ⟨before, rfl⟩ := List.getLast?_eq_some_iff.mp hlast
  have helapsed : (last.now - since) / 1000 = elapsed := by
    rw [hnow]
    field_simp
    ring
  rw [Clock.sample_eq ease hactive hfit, ← helapsed]
  exact (hrunning.updates hduration before last hsorted).shows

deriving instance DecidableEq for ClockSample

/-- A clock that turns back and forth, three times in all. -/
def backAndForth : Clock ℚ where
  kind := .rotate
  duration := 2
  delay := 1
  direction := .backward
  reverses := true
  iterations := 3
  easing := .ease .quad .easeIn
  range := 6
  multiplier := 1 / 2
  offset := 1
  directionGiven := true

/-- Squares, as the curve of every clock. -/
def squares (_ : Easing) (t : ℚ) : ℚ := t * t

/-- An object that nothing has been put into. -/
def untouched : Frame ℚ where
  num _ := 0
  flag _ := false
  timing := id
  var _ := 0

/-- The clock is asked during its delay and in the middle of its second run; and past its end, where
it is asked again. -/
theorem program_agrees_backAndForth :
    let started := (program.make untouched 0 (backAndForth.given squares)).run start 100 []
    (started.updates [⟨600, 0⟩, ⟨4100, 7⟩]).Shows
        { iteration := 1, t := 1 / 2, direction := .forward, value := 27 / 4, finished := false } ∧
      (started.updates [⟨600, 0⟩, ⟨9100, 5⟩, ⟨9500, 5⟩]).Shows
        { iteration := 2, t := 0, direction := .backward, value := 6, finished := true } := by
  have hmiddle : backAndForth.sample squares 4 =
      { iteration := 1, t := 1 / 2, direction := .forward, value := 27 / 4,
        finished := false } := by
    decide +kernel
  have hend : backAndForth.sample squares (47 / 5) =
      { iteration := 2, t := 0, direction := .backward, value := 6, finished := true } := by
    decide +kernel
  have hagrees := (program_agrees squares backAndForth rfl (by decide) untouched 0 100).2.2.2
  rw [← hmiddle, ← hend]
  exact ⟨hagrees _ 4 (by decide) (by decide +kernel) (by decide +kernel),
    hagrees _ (47 / 5) (by decide) (by decide +kernel) (by decide +kernel)⟩

end ArtCanvas.ClockCode
