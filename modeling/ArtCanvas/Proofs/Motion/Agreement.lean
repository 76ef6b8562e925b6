import ArtCanvas.Proofs.Motion.Code
import ArtCanvas.Proofs.Motion.Lengths
import ArtCanvas.Geometry.Path.Reader

/-!
# Paths in scripts

The class of paths in scripts and the animation functions of a document look for a place in the same
way. With exact numbers they come to the same segment, at the same distance from its start.

* `PathCode.execAll_atSegment`: what is done for one segment.
* `PathCode.loop_atSegment`: what is done for all segments is the search of `Stretch.locate`.
* `PathCode.run_program_of_some`, `PathCode.run_program_of_none`: what a path of a script gives
  back.
* `Curves.PlacedAt`: the point at a part of the length of a path, and where it lies.
* `MotionFunction.pointAt_places`: the points of animation functions, and the places that the paths
  of scripts find.
-/

namespace ArtCanvas

namespace PathCode

variable {α S : Type} [ExactScalar α] {s : Frame α S}

theorem item?_natCast {β : Type} (l : List β) (i : ℕ) : item? l (i : ℤ) = l[i]? := by
  rw [item?, if_pos (Int.natCast_nonneg i), Int.toNat_natCast]

section Step

variable {i : ℕ} {segment : S} {length rest : α}

/-- The place is on the segment, or the segment is left behind. -/
theorem execAll_atSegment (hlength : s.lengths[i]? = some length)
    (hsegment : s.segments[i]? = some segment) (hrest : s.var .remaining = some rest) :
    let inside := ({ s with counter := i } : Frame α S).setVar .length length
    Stmt.execAll atSegment { s with counter := i } =
      some (if rest ≤ length ∧ 0 < length then .left inside (some (segment, rest / length))
        else .next (inside.setVar .remaining (rest - length))) := by
  intro inside
  -- what the statements read: the length, the test for the place, and the answer
  have hread : (Num.lengthAt .counter).eval { s with counter := i } = some length := by
    rw [Num.eval, Index.eval, item?_natCast, hlength]
  have htest : (Test.and (.atMost (.var .remaining) (.var .length))
      (.above (.var .length) (.literal 0))).eval inside =
      some (decide (rest ≤ length ∧ 0 < length)) := by
    by_cases hfit : rest ≤ length <;>
      simp [Test.eval, Num.eval, inside, Frame.setVar, hrest, hfit]
  have hhit : (Answer.hit .counter (.binary .div (.var .remaining) (.var .length))).eval inside =
      some (some (segment, rest / length)) := by
    have hentry : item? inside.segments (Index.counter.eval inside) = some segment := by
      rw [Index.eval, item?_natCast]
      exact hsegment
    have htime : (Num.binary .div (.var .remaining) (.var .length)).eval inside =
        some (rest / length) := by
      simp [Num.eval, inside, Frame.setVar, hrest, Operator.apply]
    rw [Answer.eval, hentry, htime]
    rfl
  rw [atSegment, Stmt.execAll_cons, Stmt.exec_declare hread, Option.bind_some, Flow.andThen_next,
    Stmt.execAll_cons]
  split_ifs with hhere
  · rw [Stmt.exec_when_of_true (htest.trans (congrArg some (decide_eq_true hhere))),
      Stmt.execAll_cons, Stmt.exec_leave hhit]
    rfl
  · -- the length is taken off the way
    have hbefore : inside.var .remaining = some rest := by simp [inside, Frame.setVar, hrest]
    have hlast : (Num.var .length).eval inside = some length := by
      simp [Num.eval, inside, Frame.setVar]
    rw [Stmt.exec_when_of_false (htest.trans (congrArg some (decide_eq_false hhere))),
      Option.bind_some, Flow.andThen_next, Stmt.execAll_cons, Stmt.exec_takeOff hlast hbefore]
    rfl

end Step

section Loop

/-- What becomes of the search from a position on. It ends at the segment of the place, with the
distance from its start in the variable, and gives back the segment and the part of its length that
lies before the place; where there is no place, it goes past all segments. -/
structure Ends (s : Frame α S) (position : ℕ) (place : Option (ℕ × α))
    (flow : Option (Flow α S)) : Prop where
  inside : ∀ k r, place = some (k, r) → ∃ s' segment length,
    s.segments[position + k]? = some segment ∧ s.lengths[position + k]? = some length
      ∧ flow = some (.left s' (some (segment, r / length)))
      ∧ s'.counter = position + k ∧ s'.var .remaining = some r
  past : place = none → ∃ s', flow = some (.next s') ∧ s'.segments = s.segments

/-- The search goes on behind a segment that is left behind. -/
theorem Ends.behind {next : Frame α S} {position : ℕ} {place : Option (ℕ × α)}
    {flow : Option (Flow α S)} (h : Ends next (position + 1) place flow)
    (hsegments : next.segments = s.segments) (hlengths : next.lengths = s.lengths) :
    Ends s position (place.map fun (k, r) => (k + 1, r)) flow where
  inside k r hplace := by
    obtain ⟨⟨k, r⟩, hlater, heq⟩ := Option.map_eq_some_iff.mp hplace
    cases heq
    have hindex : position + 1 + k = position + (k + 1) := by omega
    have hinside := h.inside k r hlater
    rwa [hindex, hsegments, hlengths] at hinside
  past hnone := by
    obtain ⟨s', hflow, hsame⟩ := h.past (Option.map_eq_none_iff.mp hnone)
    exact ⟨s', hflow, hsame.trans hsegments⟩

/-- What is done for all segments is the search of `Stretch.locate`, also if it begins with a later
segment. -/
theorem loop_atSegment {before lengths : List α} {rest : α}
    (hlengths : s.lengths = before ++ lengths) (hsegments : s.segments.length = s.lengths.length)
    (hrest : s.var .remaining = some rest) :
    Ends s before.length (Stretch.locate rest lengths)
      (loop (Stmt.execAll atSegment) (List.range' before.length lengths.length) s) := by
  induction lengths generalizing before rest s with
  | nil => exact ⟨nofun, fun _ => ⟨s, rfl, rfl⟩⟩
  | cons length lengths ih =>
    have hlength : s.lengths[before.length]? = some length := by simp [hlengths]
    have hlt : before.length < s.segments.length := by simp [hsegments, hlengths]
    have hsegment := List.getElem?_eq_getElem hlt
    have hstep := execAll_atSegment hlength hsegment hrest
    dsimp only at hstep
    rw [List.length_cons, List.range'_succ, loop, hstep, Option.bind_some, Stretch.locate_cons]
    split_ifs with hhere
    · refine ⟨fun k r heq => ?_, nofun⟩
      cases heq
      exact ⟨_, _, length, hsegment, hlength, rfl, rfl, hrest⟩
    · -- the search goes on behind this segment, with less of the way to go
      generalize hnext : (({ s with counter := before.length } : Frame α S).setVar .length
        length).setVar .remaining (rest - length) = next
      obtain ⟨hsegments', hlengths'⟩ :
          next.segments = s.segments ∧ next.lengths = s.lengths := by
        rw [← hnext]
        exact ⟨rfl, rfl⟩
      have hnextRest : next.var .remaining = some (rest - length) := by
        rw [← hnext]
        simp [Frame.setVar]
      have hnextLengths : next.lengths = (before ++ [length]) ++ lengths := by
        rw [hlengths', hlengths, List.append_assoc, List.singleton_append]
      have hbehind := ih hnextLengths (by rw [hsegments', hlengths', hsegments]) hnextRest
      rw [List.length_append, List.length_singleton] at hbehind
      exact hbehind.behind hsegments' hlengths'

end Loop

/-! ### Paths of scripts -/

section Run

variable {segments : List S} {lengths : List α} {x : α}

/-- The constructor adds up the lengths. -/
theorem make_program (segments : List S) (lengths : List α) (x : α) :
    program.make segments lengths x =
      some { segments, lengths, clock := x, total := some lengths.sum } := by
  have hstep (s : Frame α S) (sum length : α) :
      (Num.binary .add (.var .sum) (.var .length)).eval
        ((s.setVar .sum sum).setVar .length length) = some (sum + length) := by
    simp [Num.eval, Frame.setVar, Operator.apply]
  -- no step of the sum reads a variable that is not there
  have hsum : lengths.foldlM (fun sum length => some (sum + length)) 0 = some lengths.sum := by
    rw [List.sum_eq_foldl]
    exact List.foldlM_pure
  have hfirst (s : Frame α S) : (Num.literal 0).eval s = some 0 := by simp [Num.eval]
  simp only [ClassCode.make, program, Stmt.execAll, Stmt.exec, hstep, hfirst]
  simp [hsum, Flow.andThen, Flow.frame]

/-- The path before the search for a place, with the way to the place. -/
def searching (segments : List S) (lengths : List α) (x : α) : Frame α S :=
  Frame.setVar { segments, lengths, clock := x, total := some lengths.sum } .remaining
    (min (max x 0) 1 * lengths.sum)

/-- The search goes through all segments, if there are any. -/
theorem run_program_of_ne_nil {o : Object α S}
    (hmake : program.make segments lengths x = some o) (hsome : segments ≠ []) :
    program.run o =
      (loop (Stmt.execAll atSegment) (List.range segments.length)
        (searching segments lengths x)).bind
          (·.andThen (Stmt.execAll [.leave (.hit .last (.literal 1))])) := by
  rw [make_program] at hmake
  cases hmake
  let start : Frame α S := { segments, lengths, clock := x, total := some lengths.sum }
  have hempty : Test.empty.eval start = some false := by simpa [Test.eval, start] using hsome
  have hway : (Num.binary .mul (.min (.max .clock (.literal 0)) (.literal 1)) .total).eval start =
      some (min (max x 0) 1 * lengths.sum) := by
    simp [Num.eval, Operator.apply, start]
  change Stmt.execAll program.locate start = _
  rw [program, Stmt.execAll_cons, Stmt.exec_when_of_false hempty, Option.bind_some,
    Flow.andThen_next, Stmt.execAll_cons, Stmt.exec_declare hway, Option.bind_some,
    Flow.andThen_next, Stmt.execAll_cons]
  rfl

theorem run_program_nil {o : Object α S} (hmake : program.make [] lengths x = some o) :
    ∃ s, program.run o = some (.left s none) := by
  rw [make_program] at hmake
  cases hmake
  exact ⟨_, rfl⟩

/-- The way to the place, as animation functions have it. -/
theorem locate_way (x : α) (lengths : List α) :
    Stretch.locate (min (max x 0) 1 * lengths.sum) lengths = Stretch.locateFraction x lengths := by
  have hclamp : min (max x 0) 1 = max 0 (min x 1) := by
    rw [max_comm, max_min_distrib_left, max_eq_right zero_le_one]
  rw [Stretch.locateFraction, ExactScalar.clamp_eq, Stretch.total_eq_sum, hclamp]

/-- What becomes of the search of a path. -/
theorem ends_loop (hlength : segments.length = lengths.length) :
    Ends (searching segments lengths x) 0 (Stretch.locateFraction x lengths)
      (loop (Stmt.execAll atSegment) (List.range segments.length)
        (searching segments lengths x)) := by
  have hlengths : (searching segments lengths x).lengths = [] ++ lengths := rfl
  have hway : (searching segments lengths x).var .remaining =
      some (min (max x 0) 1 * lengths.sum) := by
    simp [searching, Frame.setVar]
  have hends := loop_atSegment hlengths hlength hway
  rwa [locate_way, ← hlength, List.length_nil, ← List.range_eq_range'] at hends

section Found

variable {o : Object α S} (hmake : program.make segments lengths x = some o)
  (hlength : segments.length = lengths.length)

include hmake hlength

/-- Where the search finds a place, a path gives back its segment and the part of the length of the
segment that lies before the place. -/
theorem run_program_of_some {k : ℕ} {r : α}
    (hplace : Stretch.locateFraction x lengths = some (k, r)) :
    ∃ s segment length, segments[k]? = some segment ∧ lengths[k]? = some length
      ∧ program.run o = some (.left s (some (segment, r / length)))
      ∧ s.counter = k ∧ s.var .remaining = some r := by
  obtain ⟨s, segment, length, hsegment, hlength', hloop, hcounter, hrest⟩ :=
    (ends_loop hlength).inside k r hplace
  rw [Nat.zero_add] at hsegment hlength' hcounter
  have hsome : segments ≠ [] := List.ne_nil_of_mem (List.mem_of_getElem? hsegment)
  refine ⟨s, segment, length, hsegment, hlength', ?_, hcounter, hrest⟩
  rw [run_program_of_ne_nil hmake hsome, hloop]
  rfl

/-- Where the search finds no place, a path gives back the end of the last segment. -/
theorem run_program_of_none {last : S} (hlast : segments.getLast? = some last)
    (hplace : Stretch.locateFraction x lengths = none) :
    ∃ s, program.run o = some (.left s (some (last, 1))) := by
  have hsome : segments ≠ [] := by
    rintro rfl
    cases hlast
  obtain ⟨s, hloop, hsame⟩ := (ends_loop hlength).past hplace
  have hread : (Answer.hit .last (.literal 1)).eval s = some (some (last, 1)) := by
    -- the position in front of the number of segments is in the list, as the list is not empty
    have hpos : segments.length ≠ 0 := by simpa using hsome
    have hindex : (s.segments.length : ℤ) - 1 = ((segments.length - 1 : ℕ) : ℤ) := by
      rw [hsame]
      change (segments.length : ℤ) - 1 = _
      omega
    have hentry : item? s.segments (Index.last.eval s) = some last := by
      rw [Index.eval, hindex, item?_natCast, hsame]
      exact List.getLast?_eq_getElem? ▸ hlast
    simp [Answer.eval, hentry, Num.eval]
  refine ⟨s, ?_⟩
  rw [run_program_of_ne_nil hmake hsome, hloop, Option.bind_some, Flow.andThen_next,
    Stmt.execAll_cons, Stmt.exec_leave hread]
  rfl

end Found

/-- A path of a script, made of some segments with their lengths and asked while its clock shows
`x`, stops in the state `s` and gives back `answer`. -/
def Gives (segments : List S) (lengths : List α) (x : α) (s : Frame α S)
    (answer : Option (S × α)) : Prop :=
  ∃ o, program.make segments lengths x = some o ∧ program.run o = some (.left s answer)

end Run

end PathCode

/-! ### Points and places -/

variable {α Curve Pt : Type} [ExactScalar α] {K : Curves α Curve Pt} {behind : Curve → α → α}

/-- The numbers are lengths along the curves, where `behind` is the length of a curve up to a
parameter: none is negative, and the parameter at a length is the one with this length behind it. -/
structure Curves.Measured (K : Curves α Curve Pt) (behind : Curve → α → α) : Prop where
  nonneg : ∀ c, 0 ≤ K.length c
  inverse : ∀ c r, 0 ≤ r → r ≤ K.length c → behind c (K.atLength c r) = r

/-- The point at the part `x` of the length of a path lies on the segment at position `k`, which has
a length, at the distance `r` from its start. -/
structure Curves.PlacedAt (K : Curves α Curve Pt) (behind : Curve → α → α)
    (segments : List Curve) (x : α) (k : ℕ) (r : α) (segment : Curve) : Prop where
  found : Stretch.locateFraction x (segments.map K.length) = some (k, r)
  stands : segments[k]? = some segment
  pos : 0 < K.length segment
  nonneg : 0 ≤ r
  le : r ≤ K.length segment
  way : ((segments.map K.length).take k).sum + r =
    max 0 (min x 1) * (segments.map K.length).sum
  point : K.place segments x = some (K.eval segment (K.atLength segment r))
  parameter : behind segment (K.atLength segment r) = r

namespace Curves.Measured

variable (hK : K.Measured behind) {segments : List Curve}

include hK

theorem lengths_nonneg : ∀ length ∈ segments.map K.length, 0 ≤ length := by
  intro length hlength
  obtain ⟨c, -, rfl⟩ := List.mem_map.mp hlength
  exact hK.nonneg c

/-- On a path with a length every part of the length ends at a place. -/
theorem exists_placedAt (hpos : 0 < (segments.map K.length).sum) (x : α) :
    ∃ k r segment, K.PlacedAt behind segments x k r segment := by
  obtain ⟨k, r, hfound, ⟨length, hlength, hsome, hle⟩, hnonneg, hway⟩ :=
    Stretch.exists_locateFraction hK.lengths_nonneg hpos x
  rw [List.getElem?_map, Option.map_eq_some_iff] at hlength
  obtain ⟨segment, hsegment, rfl⟩ := hlength
  have htotal : ¬ Stretch.total (segments.map K.length) ≤ 0.0 := by
    rw [Stretch.total_eq_sum, ExactScalar.zero_eq]
    exact not_le.mpr hpos
  exact ⟨k, r, segment,
    { found := hfound
      stands := hsegment
      pos := hsome
      nonneg := hnonneg
      le := hle
      way := hway
      point := K.place_of_locateFraction htotal hfound hsegment
      parameter := hK.inverse segment r hnonneg hle }⟩

end Curves.Measured

/-- A path of a script finds the place that an animation function finds. -/
theorem Curves.PlacedAt.gives {segments : List Curve} {x r : α} {k : ℕ} {segment : Curve}
    (h : K.PlacedAt behind segments x k r segment) :
    ∃ s, PathCode.Gives segments (segments.map K.length) x s
        (some (segment, r / K.length segment))
      ∧ s.counter = k ∧ s.var .remaining = some r := by
  have hmake := PathCode.make_program segments (segments.map K.length) x
  obtain ⟨s, segment', length, hsegment, hlength, hrun, hcounter, hrest⟩ :=
    PathCode.run_program_of_some hmake (List.length_map ..).symm h.found
  obtain rfl : segment = segment' := Option.some.inj (h.stands.symm.trans hsegment)
  rw [List.getElem?_map, h.stands, Option.map_some] at hlength
  cases hlength
  exact ⟨s, ⟨_, hmake, hrun⟩, hcounter, hrest⟩

/-- The points of an animation function, and the places that the paths of scripts find.

The points are those of the path of the function, and there are none exactly if the path has no
segments. With exact lengths, and where the path has a length, each point lies on a segment with a
length, so that all lengths before it and the distance from its start make up the part of the whole
length; the place moves on with the part; and a path of a script finds the same segment and the same
distance. A path without length ends at its last segment in both. -/
theorem MotionFunction.pointAt_places [CurveLibrary] :
    (∀ (f : MotionFunction) (path : Path) (x : Float),
      (f.setPath path).pointAt x = cubicCurves.place path.segments x
        ∧ ((f.setPath path).pointAt x = none ↔ (f.setPath path).segments = []))
      ∧ PathCode.program.lines <+: Runtime.pathClass.body
      ∧ ∀ (α Curve Pt : Type) [ExactScalar α] (K : Curves α Curve Pt) (behind : Curve → α → α),
        K.Measured behind → ∀ segments : List Curve,
          (∀ x, K.place segments x = none ↔ segments = [])
            ∧ (0 < (segments.map K.length).sum → ∀ x, ∃ k r segment,
              K.PlacedAt behind segments x k r segment
                ∧ ∃ s, PathCode.Gives segments (segments.map K.length) x s
                    (some (segment, r / K.length segment))
                  ∧ s.counter = k ∧ s.var .remaining = some r)
            ∧ (∀ x y k r k' r', x ≤ y →
              Stretch.locateFraction x (segments.map K.length) = some (k, r) →
              Stretch.locateFraction y (segments.map K.length) = some (k', r') →
                k < k' ∨ k = k' ∧ r ≤ r')
            ∧ (∀ last, segments.getLast? = some last → (segments.map K.length).sum ≤ 0 → ∀ x,
              K.place segments x = some (K.finish last)
                ∧ ∃ s, PathCode.Gives segments (segments.map K.length) x s (some (last, 1)))
            ∧ (segments = [] → ∀ x,
              ∃ s, PathCode.Gives segments (segments.map K.length) x s none) := by
  refine ⟨fun f path x => ⟨f.pointAt_setPath path x, ?_⟩, PathCode.lines_program,
    fun α Curve Pt _ K behind hK segments => ⟨K.place_eq_none_iff segments, fun hpos x => ?_,
      fun x y k r k' r' hle => Stretch.locateFraction_mono hK.lengths_nonneg hle,
      fun last hlast hzero x => ?_, ?_⟩⟩
  · rw [f.pointAt_setPath path x]
    exact cubicCurves.place_eq_none_iff path.segments x
  · obtain ⟨k, r, segment, hplaced⟩ := hK.exists_placedAt hpos x
    exact ⟨k, r, segment, hplaced, hplaced.gives⟩
  · -- without any length there is no place, and both answer with the end
    have hnone := Stretch.locateFraction_eq_none hK.lengths_nonneg hzero x
    have hmake := PathCode.make_program segments (segments.map K.length) x
    obtain ⟨s, hrun⟩ :=
      PathCode.run_program_of_none hmake (List.length_map ..).symm hlast hnone
    exact ⟨K.place_of_none hlast (Or.inr hnone), s, _, hmake, hrun⟩
  · rintro rfl x
    have hmake := PathCode.make_program ([] : List Curve) ([].map K.length) x
    obtain ⟨s, hrun⟩ := PathCode.run_program_nil hmake
    exact ⟨s, _, hmake, hrun⟩

/-- Pieces of a line of numbers, each with its two ends. -/
def linePieces : Curves ℚ (ℚ × ℚ) ℚ where
  length c := |c.2 - c.1|
  atLength c r := r / |c.2 - c.1|
  eval c t := c.1 + t * (c.2 - c.1)
  finish c := c.2

theorem measured_linePieces : linePieces.Measured fun c t => t * |c.2 - c.1| where
  nonneg c := abs_nonneg _
  inverse c r hnonneg hle := by
    change r / |c.2 - c.1| * |c.2 - c.1| = r
    rcases eq_or_ne |c.2 - c.1| 0 with hzero | hsome
    · rw [hzero, mul_zero]
      exact le_antisymm hnonneg (hle.trans_eq hzero)
    · exact div_mul_cancel₀ r hsome

/-- A way out and back, with pieces without length at both ends and at the turn. -/
def outAndBack : List (ℚ × ℚ) := [(0, 0), (0, 3), (3, 3), (3, 2), (2, 2)]

/-- The way is asked for its point behind three quarters, where a piece ends, and past its end. -/
theorem MotionFunction.pointAt_places_outAndBack :
    linePieces.Measured (fun c t => t * |c.2 - c.1|)
      ∧ linePieces.place outAndBack (3 / 4) = some 3
      ∧ (∃ s, PathCode.Gives outAndBack ([0, 3, 0, 1, 0] : List ℚ) (3 / 4) s (some ((0, 3), 1))
        ∧ s.counter = 1)
      ∧ linePieces.place outAndBack 7 = some 2
      ∧ (∃ s, PathCode.Gives outAndBack ([0, 3, 0, 1, 0] : List ℚ) 7 s (some ((3, 2), 1))
        ∧ s.counter = 3)
      ∧ linePieces.place [(5, 5)] 0 = some 5 := by
  have hplaces := pointAt_places.2.2 ℚ (ℚ × ℚ) ℚ linePieces _ measured_linePieces
  have hlengths : outAndBack.map linePieces.length = [0, 3, 0, 1, 0] := by decide +kernel
  have hpos : 0 < (outAndBack.map linePieces.length).sum := by decide +kernel
  have hquarters : Stretch.locateFraction (3 / 4) (outAndBack.map linePieces.length) =
      some (1, 3) := by
    decide +kernel
  have hpast : Stretch.locateFraction 7 (outAndBack.map linePieces.length) = some (3, 1) := by
    decide +kernel
  obtain ⟨k, r, segment, hplaced, s, hgives, hcounter, -⟩ := (hplaces outAndBack).2.1 hpos (3 / 4)
  -- three quarters of the way out and back end in the second piece, at its end
  cases hquarters.symm.trans hplaced.found
  obtain rfl : ((0, 3) : ℚ × ℚ) = segment := Option.some.inj hplaced.stands
  obtain ⟨k', r', segment', hplaced', s', hgives', hcounter', -⟩ := (hplaces outAndBack).2.1 hpos 7
  cases hpast.symm.trans hplaced'.found
  obtain rfl : ((3, 2) : ℚ × ℚ) = segment' := Option.some.inj hplaced'.stands
  have hsingle := (hplaces [(5, 5)]).2.2.2.1 (5, 5) rfl (by decide +kernel) 0
  rw [hlengths] at hgives hgives'
  have hwhole : (3 : ℚ) / linePieces.length (0, 3) = 1 := by decide +kernel
  have hwhole' : (1 : ℚ) / linePieces.length (3, 2) = 1 := by decide +kernel
  rw [hwhole] at hgives
  rw [hwhole'] at hgives'
  have hpoint : linePieces.eval (0, 3) (linePieces.atLength (0, 3) 3) = 3 := by decide +kernel
  have hpoint' : linePieces.eval (3, 2) (linePieces.atLength (3, 2) 1) = 2 := by decide +kernel
  exact ⟨measured_linePieces, hplaced.point.trans (congrArg some hpoint), ⟨s, hgives, hcounter⟩,
    hplaced'.point.trans (congrArg some hpoint'), ⟨s', hgives', hcounter'⟩, hsingle.1⟩

end ArtCanvas
