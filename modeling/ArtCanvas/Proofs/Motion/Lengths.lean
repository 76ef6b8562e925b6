import Mathlib
import ArtCanvas.Function.Motion
import ArtCanvas.Proofs.Scalar.Exact

/-!
# Places along a path

A place on a path is given by the part of the whole length that lies before it. The search for it
takes the length of one segment after the other off this distance. With exact numbers it ends at the
segment that holds the place, whatever segments without length stand around it.

* `Stretch.exists_locate`: the search ends within a segment that has a length, at the right place.
* `Stretch.locate_mono`: a place further on is in the same segment or a later one.
* `Curves`: what is known of the curves of a path, and `Curves.place`: the point at a part of the
  length.
* `MotionFunction.pointAt_setPath`: these are the points of animation functions.
-/

namespace ArtCanvas

namespace Stretch

/-! ### The search -/

section Any

variable {α : Type} [Scalar α]

/-- The search ends within the list or not at all. -/
theorem locate_lt {lengths : List α} {rest r : α} {k : ℕ}
    (h : locate rest lengths = some (k, r)) : k < lengths.length := by
  induction lengths generalizing rest k with
  | nil => cases h
  | cons length lengths ih =>
    rw [locate] at h
    split at h
    · cases h
      exact Nat.zero_lt_succ _
    · obtain ⟨⟨k', r'⟩, hlater, heq⟩ := Option.map_eq_some_iff.mp h
      cases heq
      exact Nat.succ_lt_succ (ih hlater)

end Any

variable {α : Type} [ExactScalar α]

theorem total_eq_sum (lengths : List α) : total lengths = lengths.sum := by
  rw [total, ExactScalar.zero_eq, List.sum_eq_foldl]

/-- One step of the search. -/
theorem locate_cons (rest length : α) (lengths : List α) :
    locate rest (length :: lengths) =
      if rest ≤ length ∧ 0 < length then some (0, rest)
      else (locate (rest - length) lengths).map fun (index, rest) => (index + 1, rest) := by
  rw [locate, ExactScalar.zero_eq]

/-- The place that the search looks for is in a stretch, at a distance from its start: the stretches
before it and this distance make up the way. -/
structure IsPlace (lengths : List α) (way : α) (k : ℕ) (r : α) : Prop where
  pos : ∃ length, lengths[k]? = some length ∧ 0 < length ∧ r ≤ length
  nonneg : 0 ≤ r
  way : (lengths.take k).sum + r = way

/-- The search ends at the place, where some stretch has a length. -/
theorem exists_locate {lengths : List α} (hnonneg : ∀ length ∈ lengths, 0 ≤ length)
    (hpos : 0 < lengths.sum) {way : α} (hway : 0 ≤ way) (hle : way ≤ lengths.sum) :
    ∃ k r, locate way lengths = some (k, r) ∧ IsPlace lengths way k r := by
  induction lengths generalizing way with
  | nil => exact absurd hpos (lt_irrefl 0)
  | cons length lengths ih =>
    rw [List.sum_cons] at hpos hle
    have hlength : 0 ≤ length := hnonneg length List.mem_cons_self
    rw [locate_cons]
    split_ifs with hhere
    · exact ⟨0, way, rfl, ⟨length, rfl, hhere.2, hhere.1⟩, hway, zero_add way⟩
    · -- what is left of the way ends further on, where some stretch has a length too
      have hrest : 0 ≤ way - length ∧ 0 < lengths.sum := by
        rcases hlength.lt_or_eq with hsome | hnone
        · have hfar : length < way := by
            by_contra hnear
            exact hhere ⟨not_lt.mp hnear, hsome⟩
          exact ⟨sub_nonneg.mpr hfar.le, by linarith⟩
        · exact ⟨by linarith, by linarith⟩
      obtain ⟨k, r, hlocate, hplace⟩ :=
        ih (fun l hl => hnonneg l (List.mem_cons_of_mem _ hl)) hrest.2 hrest.1 (by linarith)
      refine ⟨k + 1, r, ?_, hplace.pos, hplace.nonneg, ?_⟩
      · rw [hlocate]
        rfl
      · rw [List.take_succ_cons, List.sum_cons, add_assoc, hplace.way, add_sub_cancel]

/-- A longer way leads as far at least. -/
theorem locate_mono {lengths : List α} {way way' r r' : α} {k k' : ℕ} (hle : way ≤ way')
    (h : locate way lengths = some (k, r)) (h' : locate way' lengths = some (k', r')) :
    k < k' ∨ k = k' ∧ r ≤ r' := by
  induction lengths generalizing way way' k k' with
  | nil => cases h
  | cons length lengths ih =>
    rw [locate_cons] at h h'
    -- the shorter way ends here if the longer one does
    split_ifs at h h' with hhere hhere' hhere'
    · cases h
      cases h'
      exact Or.inr ⟨rfl, hle⟩
    · obtain ⟨⟨j', s'⟩, -, heq'⟩ := Option.map_eq_some_iff.mp h'
      cases h
      cases heq'
      exact Or.inl (Nat.zero_lt_succ _)
    · exact absurd ⟨hle.trans hhere'.1, hhere'.2⟩ hhere
    · obtain ⟨⟨j, s⟩, hlater, heq⟩ := Option.map_eq_some_iff.mp h
      obtain ⟨⟨j', s'⟩, hlater', heq'⟩ := Option.map_eq_some_iff.mp h'
      cases heq
      cases heq'
      exact (ih (sub_le_sub_right hle length) hlater hlater').imp Nat.succ_lt_succ
        fun hsame => ⟨congrArg (· + 1) hsame.1, hsame.2⟩

/-- Where no stretch has a length nothing is found. -/
theorem locate_eq_none {lengths : List α} (hzero : ∀ length ∈ lengths, length ≤ 0) (way : α) :
    locate way lengths = none := by
  induction lengths generalizing way with
  | nil => rfl
  | cons length lengths ih =>
    have hnone := hzero length List.mem_cons_self
    rw [locate_cons, if_neg fun hhere => hhere.2.not_ge hnone,
      ih fun l hl => hzero l (List.mem_cons_of_mem _ hl)]
    rfl

/-! ### Parts of the whole length -/

section Fraction

variable {lengths : List α} (hnonneg : ∀ length ∈ lengths, 0 ≤ length)

include hnonneg

/-- The place at a part of the whole length is found, where there is any length. -/
theorem exists_locateFraction (hpos : 0 < lengths.sum) (x : α) :
    ∃ k r, locateFraction x lengths = some (k, r)
      ∧ IsPlace lengths (max 0 (min x 1) * lengths.sum) k r := by
  have hlow : 0 ≤ max 0 (min x 1) := le_max_left _ _
  have hhigh : max 0 (min x 1) ≤ 1 := max_le zero_le_one (min_le_right _ _)
  rw [locateFraction, ExactScalar.clamp_eq, total_eq_sum]
  exact exists_locate hnonneg hpos (mul_nonneg hlow hpos.le) (mul_le_of_le_one_left hpos.le hhigh)

/-- The places move on with the part of the length. -/
theorem locateFraction_mono {x y r r' : α} {k k' : ℕ} (hle : x ≤ y)
    (h : locateFraction x lengths = some (k, r)) (h' : locateFraction y lengths = some (k', r')) :
    k < k' ∨ k = k' ∧ r ≤ r' := by
  rw [locateFraction, ExactScalar.clamp_eq, total_eq_sum] at h h'
  have hsum : 0 ≤ lengths.sum := List.sum_nonneg hnonneg
  exact locate_mono (mul_le_mul_of_nonneg_right
    (max_le_max_left 0 (min_le_min_right 1 hle)) hsum) h h'

/-- Where there is no length nothing is found. -/
theorem locateFraction_eq_none (hzero : lengths.sum ≤ 0) (x : α) :
    locateFraction x lengths = none := by
  have hsum : lengths.sum = 0 := le_antisymm hzero (List.sum_nonneg hnonneg)
  exact locate_eq_none
    (fun length hlength => (List.all_zero_of_le_zero_le_of_sum_eq_zero hnonneg hsum hlength).le) _

end Fraction

end Stretch

/-! ### Points of a path -/

/-- What is known of the curves of a path, with lengths and parameters of some type of numbers. -/
structure Curves (α Curve Pt : Type) where
  /-- The length of a curve. -/
  length : Curve → α
  /-- The parameter at which a curve has a length behind it. -/
  atLength : Curve → α → α
  /-- The point of a curve at a parameter. -/
  eval : Curve → α → Pt
  /-- The end of a curve. -/
  finish : Curve → Pt

namespace Curves

variable {α Curve Pt : Type}

section Place

variable [Scalar α] (K : Curves α Curve Pt)

/-- The point of a path that lies the part `fraction` of its length from the start. -/
def place (segments : List Curve) (fraction : α) : Option Pt := do
  let lengths := segments.map K.length
  let last ← segments.getLast?
  if Stretch.total lengths ≤ 0.0 then return K.finish last
  match Stretch.locateFraction fraction lengths with
  | none => return K.finish last
  | some (index, rest) =>
    let segment ← segments[index]?
    return K.eval segment (K.atLength segment rest)

/-- Where there is a place, the point is there, at the parameter with the length behind it. -/
theorem place_of_locateFraction {segments : List Curve} {fraction rest : α} {index : ℕ}
    {segment : Curve} (htotal : ¬ Stretch.total (segments.map K.length) ≤ 0.0)
    (h : Stretch.locateFraction fraction (segments.map K.length) = some (index, rest))
    (hsegment : segments[index]? = some segment) :
    K.place segments fraction = some (K.eval segment (K.atLength segment rest)) := by
  have hsome : segments ≠ [] := List.ne_nil_of_mem (List.mem_of_getElem? hsegment)
  rw [place, List.getLast?_eq_some_getLast hsome, h]
  simp [htotal, hsegment]

/-- Where there is no length, or no place, the point is the end of the path. -/
theorem place_of_none {segments : List Curve} {fraction : α} {last : Curve}
    (hlast : segments.getLast? = some last)
    (h : Stretch.total (segments.map K.length) ≤ 0.0
      ∨ Stretch.locateFraction fraction (segments.map K.length) = none) :
    K.place segments fraction = some (K.finish last) := by
  rw [place, hlast]
  rcases h with htotal | hnone
  · simp [htotal]
  · rw [hnone]
    simp

/-- A path without segments has no points, and every other path has them. -/
theorem place_eq_none_iff (segments : List Curve) (fraction : α) :
    K.place segments fraction = none ↔ segments = [] := by
  refine ⟨fun h => ?_, fun h => by rw [h]; rfl⟩
  by_contra hsome
  have hlast := List.getLast?_eq_some_getLast hsome
  by_cases htotal : Stretch.total (segments.map K.length) ≤ 0.0
  · rw [K.place_of_none hlast (Or.inl htotal)] at h
    cases h
  · cases hfound : Stretch.locateFraction fraction (segments.map K.length) with
    | none =>
      rw [K.place_of_none hlast (Or.inr hfound)] at h
      cases h
    | some found =>
      have hlt := Stretch.locate_lt hfound
      rw [List.length_map] at hlt
      rw [K.place_of_locateFraction htotal hfound (List.getElem?_eq_getElem hlt)] at h
      cases h

end Place

end Curves

/-- The curves of animation functions. -/
def cubicCurves [CurveLibrary] : Curves Float Cubic (Point Float) where
  length c := CurveLibrary.length c MotionFunction.accuracy
  atLength c rest := CurveLibrary.atLength c rest MotionFunction.accuracy
  eval := Cubic.eval
  finish := Cubic.p3

/-- The points of an animation function are those of its path. -/
theorem MotionFunction.pointAt_setPath [CurveLibrary] (f : MotionFunction) (path : Path)
    (fraction : Float) :
    (f.setPath path).pointAt fraction = cubicCurves.place path.segments fraction := by
  have hlengths : (f.setPath path).lengths = path.segments.map cubicCurves.length := rfl
  rw [pointAt, Curves.place, totalLength, hlengths]
  cases Stretch.locateFraction fraction (path.segments.map cubicCurves.length) <;> rfl

end ArtCanvas
