import ArtCanvas.Script.Code

/-!
# What is entered is left

A writer enters and leaves blocks, and a script keeps states of its context and goes back to them.
Both are read as lists of delimiters here. In a balanced list nothing is left that was not entered,
and in the end all that was entered has been left.

* `Delimiter.depthAfter`, `Delimiter.Balanced`: how many delimiters are open, and lists that are
  balanced.
* `Code.balanced_stepsOf`: the steps that write code enter and leave blocks in a balanced way.
* `CodeWriter.Nests`, `Code.nests_stepsOf`: no block is closed on the outermost level, and the
  writer ends there.
-/

namespace ArtCanvas

/-- Something is entered or left. -/
inductive Delimiter where
  | enter
  | leave
  deriving DecidableEq, Repr

namespace Delimiter

/-- How many delimiters are open after some more, if none is left that was not entered. -/
def depthAfter : Nat → List Delimiter → Option Nat
  | depth, [] => some depth
  | depth, .enter :: delimiters => depthAfter (depth + 1) delimiters
  | 0, .leave :: _ => none
  | depth + 1, .leave :: delimiters => depthAfter depth delimiters

/-- All that is entered is left, and nothing else is. -/
def Balanced (delimiters : List Delimiter) : Prop := depthAfter 0 delimiters = some 0

/-- Whether delimiters are balanced is found out by counting. -/
instance : DecidablePred Balanced := fun _ => inferInstanceAs (Decidable (_ = _))

/-- Depth is counted through two lists one after the other. -/
theorem depthAfter_append (depth : Nat) (delimiters delimiters' : List Delimiter) :
    depthAfter depth (delimiters ++ delimiters') =
      (depthAfter depth delimiters).bind fun inner => depthAfter inner delimiters' := by
  induction delimiters generalizing depth with
  | nil => rfl
  | cons delimiter delimiters ih =>
    cases delimiter with
    | enter => exact ih (depth + 1)
    | leave =>
      cases depth with
      | zero => rfl
      | succ depth => exact ih depth

/-- Delimiters that are open already do not matter. -/
theorem depthAfter_add {depth depth' : Nat} {delimiters : List Delimiter}
    (h : depthAfter depth delimiters = some depth') (more : Nat) :
    depthAfter (depth + more) delimiters = some (depth' + more) := by
  induction delimiters generalizing depth with
  | nil =>
    obtain rfl := Option.some.inj h
    rfl
  | cons delimiter delimiters ih =>
    cases delimiter with
    | enter =>
      rw [depthAfter, Nat.add_right_comm]
      exact ih h
    | leave =>
      cases depth with
      | zero => cases h
      | succ depth =>
        rw [Nat.add_right_comm]
        exact ih h

/-- A delimiter is left only where one is open. -/
theorem exists_depthAfter_of_leave {depth depth' : Nat} {before after : List Delimiter}
    (h : depthAfter depth (before ++ .leave :: after) = some depth') :
    ∃ inner, depthAfter depth before = some (inner + 1) := by
  rw [depthAfter_append, Option.bind_eq_some_iff] at h
  obtain ⟨inner, hbefore, hleave⟩ := h
  cases inner with
  | zero => cases hleave
  | succ inner => exact ⟨inner, hbefore⟩

namespace Balanced

variable {delimiters delimiters' : List Delimiter}

theorem nil : Balanced [] := rfl

/-- Behind balanced delimiters as many are open as in front of them. -/
theorem depthAfter (h : Balanced delimiters) (depth : Nat) :
    depthAfter depth delimiters = some depth := by
  have hadd := depthAfter_add h depth
  rwa [Nat.zero_add] at hadd

/-- Two balanced lists make one. -/
theorem append (h : Balanced delimiters) (h' : Balanced delimiters') :
    Balanced (delimiters ++ delimiters') := by
  rw [Balanced, depthAfter_append, h, Option.bind_some]
  exact h'

/-- A balanced list can be enclosed. -/
theorem enclose (h : Balanced delimiters) : Balanced (.enter :: delimiters ++ [.leave]) := by
  rw [Balanced, List.cons_append, Delimiter.depthAfter, depthAfter_append, h.depthAfter]
  rfl

/-- Balanced lists can follow each other. -/
theorem flatMap {α : Type} {f : α → List Delimiter} {l : List α} (h : ∀ a ∈ l, Balanced (f a)) :
    Balanced (l.flatMap f) := by
  induction l with
  | nil => exact nil
  | cons a l ih =>
    obtain ⟨hfirst, hrest⟩ := List.forall_mem_cons.mp h
    exact hfirst.append (ih hrest)

end Balanced

end Delimiter

open Delimiter (Balanced depthAfter)

/-- What a step enters or leaves: a block. -/
def WriterStep.delimiter? : WriterStep → Option Delimiter
  | .line _ | .blank => none
  | .openBlock _ => some .enter
  | .closeBlock _ => some .leave

namespace CodeWriter

/-- The writer goes one level up for each block that it closes, as long as it closes only blocks
that it opened. -/
theorem level_run {w : CodeWriter} {steps : List WriterStep} {level : Nat}
    (h : depthAfter w.level (steps.filterMap WriterStep.delimiter?) = some level) :
    (run w steps).level = level := by
  induction steps generalizing w with
  | nil => exact Option.some.inj h
  | cons step steps ih =>
    refine ih (w := w.step step) ?_
    cases step with
    | line text => exact h
    | blank => exact h
    | openBlock opening => exact h
    | closeBlock closing =>
      -- on the outermost level the writer would stay there, but then there is no depth behind it
      obtain ⟨text, level'⟩ := w
      cases level' with
      | zero => cases h
      | succ level' => exact h

/-- Steps that are in order: a block is never closed on the outermost level, and the last level is
the outermost one. -/
structure Nests (steps : List WriterStep) : Prop where
  level_pos : ∀ before closing after, steps = before ++ .closeBlock closing :: after →
    0 < (run {} before).level
  level_eq : (run {} steps).level = 0

/-- A writer whose steps are balanced is back at its level in the end. -/
theorem nests_of_balanced {steps : List WriterStep}
    (h : Balanced (steps.filterMap WriterStep.delimiter?)) : Nests steps where
  level_pos := by
    rintro before closing after rfl
    -- a block is open where one is closed, and the level is the number of open blocks
    rw [List.filterMap_append, List.filterMap_cons] at h
    obtain ⟨inner, hbefore⟩ := Delimiter.exists_depthAfter_of_leave h
    rw [level_run hbefore]
    exact inner.succ_pos
  level_eq := level_run h

end CodeWriter

namespace Code

mutual

/-- A piece of code closes the blocks that it opens. -/
theorem balanced_steps : (code : Code) → Balanced (code.steps.filterMap WriterStep.delimiter?)
  | .line _ => .nil
  | .blank => .nil
  | .block opening body closing => by
    rw [steps, List.filterMap_append]
    exact (balanced_stepsOf body).enclose

/-- So do pieces of code. -/
theorem balanced_stepsOf :
    (code : List Code) → Balanced ((stepsOf code).filterMap WriterStep.delimiter?)
  | [] => .nil
  | first :: rest => by
    rw [stepsOf, List.filterMap_append]
    exact (balanced_steps first).append (balanced_stepsOf rest)

end

/-- The steps of every tree of code are balanced. -/
theorem nests_stepsOf (code : List Code) : CodeWriter.Nests (stepsOf code) :=
  CodeWriter.nests_of_balanced (balanced_stepsOf code)

end Code

end ArtCanvas
