import ArtCanvas.Proofs.Easing.Formulas

/-!
# Algebraic easing curves

What the easing curves made of arithmetic alone have in common, with exact numbers: they lead from 0
to 1, stay between these, and apart from those that bounce they never go back.

* `Easing.bounceOut_mem`: the four arcs of a bounce stay in range.
* `Easing.spans_of_arithmetic?`, `Easing.monotoneOn_of_arithmetic?`: the formulas on times from 0 to
  1.
* `Easing.inTime`: other times count as the nearer end, and `Easing.evalWith_of_arithmetic?`: this
  is how curves treat them.
* `Easing.algebraic_curves`: the curves at any time, and how the three shapes depend on each other.
-/

namespace ArtCanvas.Easing

open Set (Icc)

variable {α : Type} [ExactScalar α]

/-! ### The bounce -/

section Bounce

/-- The factor of the parabolas is the square of 2.75, so that an arc is a square in time that is
stretched by 2.75. -/
theorem bounceArc_eq (center lift t : α) :
    bounceArc center lift t = (2.75 * t - center) ^ 2 + lift := by
  rw [bounceArc]
  norm_num
  ring

/-- An arc that is at 1 where the stretched time is `width` away from its center stays between its
lift and 1 up to there. -/
theorem bounceArc_mem {center lift t : α} (width : α) (hwidth : width ^ 2 + lift = 1)
    (hlift : 0 ≤ lift) (hlow : center - width ≤ 2.75 * t) (hhigh : 2.75 * t ≤ center + width) :
    bounceArc center lift t ∈ Icc (0 : α) 1 := by
  rw [bounceArc_eq]
  have hsquare : (2.75 * t - center) ^ 2 ≤ width ^ 2 := sq_le_sq' (by linarith) (by linarith)
  exact ⟨add_nonneg (sq_nonneg _) hlift, by linarith⟩

/-- A ball that bounces to rest at 1 stays between its ground and its first height: the arcs are at
1 where they meet. -/
theorem bounceOut_mem {t : α} (ht : t ∈ Icc (0 : α) 1) : bounceOut t ∈ Icc (0 : α) 1 := by
  have hfirst : 7.5625 * t * t = bounceArc 0 0 t := by norm_num [bounceArc]
  have hstretch : ∀ x : α, t < x / 2.75 ↔ 2.75 * t < x := fun x => by
    rw [lt_div_iff₀ (by norm_num), mul_comm]
  have hstart : 0 ≤ 2.75 * t := mul_nonneg (by norm_num) ht.1
  have hend : 2.75 * t ≤ 2.75 := mul_le_of_le_one_right (by norm_num) ht.2
  simp only [bounceOut, hfirst, hstretch]
  -- each arc lasts from its center less its width to its center plus its width
  split_ifs with h1 h2 h3
  · exact bounceArc_mem 1 (by norm_num) le_rfl (by linarith) (by linarith)
  · exact bounceArc_mem 0.5 (by norm_num) (by norm_num) (by linarith) (by linarith)
  · exact bounceArc_mem 0.25 (by norm_num) (by norm_num) (by linarith) (by linarith)
  · exact bounceArc_mem 0.125 (by norm_num) (by norm_num) (by linarith) (by linarith)

end Bounce

/-! ### From 0 to 1 -/

section UnitTime

variable {f : α → α}

/-- Powers never go back between 0 and 1. -/
theorem monotoneOn_of_eq_pow (n : ℕ) (hf : ∀ u, f u = u ^ n) : MonotoneOn f (Icc 0 1) := by
  intro s hs t _ hle
  rw [hf, hf]
  exact pow_le_pow_left₀ hs.1 hle n

/-- A jump from 0 to 1 never goes back. -/
theorem monotone_jump {p : α → Prop} [DecidablePred p] (hp : ∀ {s t}, s ≤ t → p t → p s) :
    Monotone fun t => if p t then (0.0 : α) else 1.0 := by
  intro s t hle
  by_cases ht : p t
  · simp only [if_pos ht, if_pos (hp hle ht), le_refl]
  · simp only [if_neg ht]
    split_ifs <;> norm_num

/-- Steps of a sixtieth never go back. -/
theorem monotone_clockTick : Monotone fun t : α => Scalar.floor (t * 60.0) / 60.0 := by
  intro s t hle
  have hfloor : ⌊s * 60.0⌋ ≤ ⌊t * 60.0⌋ := by gcongr
  have hcast : (⌊s * 60.0⌋ : α) ≤ ⌊t * 60.0⌋ := Int.cast_le.mpr hfloor
  simp only [ExactScalar.floor_eq]
  exact div_le_div_of_nonneg_right hcast (by norm_num)

/-- No rise goes back, apart from the bouncing one. -/
theorem monotoneOn_rise {curve : Curve} (hrise : curve.rise? = some f) (hbounce : curve ≠ .bounce) :
    MonotoneOn f (Icc 0 1) := by
  cases curve with
  | sine | circ | expo => cases hrise
  | bounce => exact absurd rfl hbounce
  | quad =>
    cases hrise
    exact monotoneOn_of_eq_pow 2 fun u => (sq u).symm
  | cubic =>
    cases hrise
    exact monotoneOn_of_eq_pow 3 fun u => by rw [cube]; ring
  | quart =>
    cases hrise
    exact monotoneOn_of_eq_pow 4 fun u => by rw [fourth]; ring
  | quint =>
    cases hrise
    exact monotoneOn_of_eq_pow 5 fun u => by rw [fifth]; ring

/-- The bouncing curve leads from 0 to 1 as well. -/
theorem spans_bounceOut : Spans (bounceOut : α → α) where
  start := by norm_num [bounceOut]
  finish := by norm_num [bounceOut, bounceArc]
  mapsTo _ ht := bounceOut_mem ht

/-- Every rise leads from 0 to 1 and stays between them. -/
theorem spans_rise {curve : Curve} (hrise : curve.rise? = some f) : Spans f := by
  by_cases hbounce : curve = .bounce
  · -- a bounce does go back, so its range comes from its arcs
    subst hbounce
    cases hrise
    exact spans_bounceOut.reversed
  · have hends : f 0 = 0 ∧ f 1 = 1 := by
      cases curve <;> cases hrise <;> simp [cube, fourth, fifth] at hbounce ⊢
    exact .of_monotoneOn hends.1 hends.2 (monotoneOn_rise hrise hbounce)

/-- Curves made of arithmetic never go back, apart from those that bounce. -/
theorem monotoneOn_of_arithmetic? {easing : Easing} (h : easing.arithmetic? = some f)
    (hbounce : ∀ shape, easing ≠ .ease .bounce shape) : MonotoneOn f (Icc 0 1) := by
  cases easing with
  | linear =>
    cases h
    exact monotone_id.monotoneOn _
  | ease curve shape =>
    rw [arithmetic?_ease, Option.map_eq_some_iff] at h
    obtain ⟨rise, hrise, rfl⟩ := h
    have hcurve : curve ≠ .bounce := fun heq => hbounce shape (heq ▸ rfl)
    exact Shape.monotoneOn_bend (spans_rise hrise) (monotoneOn_rise hrise hcurve) shape
  | zeroStep =>
    cases h
    exact (monotone_jump fun hle ht => hle.trans ht).monotoneOn _
  | halfStep =>
    cases h
    exact (monotone_jump fun hle ht => hle.trans_lt ht).monotoneOn _
  | oneStep =>
    cases h
    -- this jump is written the other way around
    have hjump : (fun t : α => if 1.0 ≤ t then (1.0 : α) else 0.0) =
        fun t => if ¬ 1.0 ≤ t then 0.0 else 1.0 := funext fun t => (ite_not _ _ _).symm
    rw [hjump]
    exact (monotone_jump fun hle ht hs => ht (hs.trans hle)).monotoneOn _
  | clockTick =>
    cases h
    exact monotone_clockTick.monotoneOn _

/-- Curves made of arithmetic lead from 0 to 1 and stay between them. -/
theorem spans_of_arithmetic? {easing : Easing} (h : easing.arithmetic? = some f) : Spans f := by
  cases easing with
  | ease curve shape =>
    rw [arithmetic?_ease, Option.map_eq_some_iff] at h
    obtain ⟨rise, hrise, rfl⟩ := h
    exact (spans_rise hrise).bend shape
  | linear | zeroStep | halfStep | oneStep | clockTick =>
    have hmono := monotoneOn_of_arithmetic? h (by simp)
    have hends : f 0 = 0 ∧ f 1 = 1 := by
      cases h
      norm_num [ExactScalar.floor_eq]
    exact .of_monotoneOn hends.1 hends.2 hmono

end UnitTime

/-! ### Any time -/

section AnyTime

/-- A time, or the nearer end for times outside of 0 to 1. -/
def inTime (t : α) : α := max 0 (min t 1)

variable {t : α}

/-- Times are moved to the nearer end. -/
theorem inTime_mem (t : α) : inTime t ∈ Icc (0 : α) 1 :=
  ⟨le_max_left _ _, max_le zero_le_one (min_le_right _ _)⟩

/-- Times from 0 to 1 are left as they are. -/
theorem inTime_of_mem (ht : t ∈ Icc (0 : α) 1) : inTime t = t := by
  rw [inTime, min_eq_left ht.2, max_eq_right ht.1]

/-- Earlier times count as 0. -/
theorem inTime_of_nonpos (ht : t ≤ 0) : inTime t = 0 := by
  rw [inTime, min_eq_left (ht.trans zero_le_one), max_eq_left ht]

/-- Later times count as 1. -/
theorem inTime_of_one_le (ht : 1 ≤ t) : inTime t = 1 := by
  rw [inTime, min_eq_right ht, max_eq_right zero_le_one]

/-- Times are moved only once. -/
theorem inTime_inTime (t : α) : inTime (inTime t) = inTime t := inTime_of_mem (inTime_mem t)

/-- Later times are not moved before earlier ones. -/
theorem monotone_inTime : Monotone (inTime : α → α) := fun _ _ hle =>
  max_le_max le_rfl (min_le_min hle le_rfl)

/-- Before 0, from 0 to 1, or after 1. -/
theorem time_cases (t : α) : t ≤ 0 ∨ t ∈ Icc (0 : α) 1 ∨ 1 ≤ t := by
  rcases le_total t 0 with hlow | hlow
  · exact Or.inl hlow
  · exact Or.inr ((le_total t 1).imp_left fun hhigh => ⟨hlow, hhigh⟩)

/-- Time that runs back is moved in the same way. -/
theorem inTime_one_sub (t : α) : inTime (1 - t) = 1 - inTime t := by
  rcases time_cases t with ht | ht | ht
  · rw [inTime_of_nonpos ht, inTime_of_one_le (by linarith), sub_zero]
  · rw [inTime_of_mem ht, inTime_of_mem (one_sub_mem_Icc ht)]
  · rw [inTime_of_one_le ht, inTime_of_nonpos (by linarith), sub_self]

/-- In the first half, time may run twice as fast. -/
theorem inTime_two_mul (ht : t < 1 / 2) : inTime (2 * t) = 2 * inTime t := by
  rcases time_cases t with hlow | hmem | hhigh
  · rw [inTime_of_nonpos hlow, inTime_of_nonpos (by linarith), mul_zero]
  · rw [inTime_of_mem hmem, inTime_of_mem (two_mul_mem_Icc hmem ht)]
  · linarith

/-- The first half of the time stays the first half. -/
theorem inTime_lt_half (ht : t < 1 / 2) : inTime t < 1 / 2 :=
  max_lt (by norm_num) ((min_le_left t 1).trans_lt ht)

variable (other : Easing → α → α) {easing : Easing} {f : α → α}

/-- A curve made of arithmetic is looked up at a time from 0 to 1. -/
theorem evalWith_of_arithmetic? (h : easing.arithmetic? = some f) (t : α) :
    easing.evalWith other t = f (inTime t) := by
  rw [evalWith, ExactScalar.clamp_eq, h, inTime]

/-- An eased curve is its rise, bent by the shape, at a time from 0 to 1. -/
theorem evalWith_of_rise? {curve : Curve} (hrise : curve.rise? = some f) (shape : Shape) (t : α) :
    (ease curve shape).evalWith other t = shape.bend f (inTime t) := by
  refine evalWith_of_arithmetic? other ?_ t
  rw [arithmetic?_ease, hrise, Option.map_some]

/-- The curves made of arithmetic alone, at any time. They stay between 0 and 1, times outside of 0
to 1 count as the nearer end, they lead from 0 to 1, and all but those that bounce never go back.
The shape that is slow at the end is the one that is slow at the start, reversed. The shape that is
slow at both ends starts as the one that is slow at the start, at half its size, and its second half
is symmetric to the first. -/
theorem algebraic_curves :
    (∀ easing : Easing, easing.IsAlgebraic →
      (∀ t, 0 ≤ easing.evalWith other t ∧ easing.evalWith other t ≤ 1 ∧
        easing.evalWith other t = easing.evalWith other (max 0 (min t 1))) ∧
      easing.evalWith other 0 = 0 ∧ easing.evalWith other 1 = 1 ∧
      ((∀ shape, easing ≠ .ease .bounce shape) → Monotone (easing.evalWith other))) ∧
    ∀ curve : Curve, curve.IsAlgebraic →
      (∀ t, (ease curve .easeOut).evalWith other t =
        1 - (ease curve .easeIn).evalWith other (1 - t)) ∧
      (∀ t, t < 1 / 2 → (ease curve .easeInOut).evalWith other t =
        (ease curve .easeIn).evalWith other (2 * t) / 2) ∧
      ∀ t, (ease curve .easeInOut).evalWith other t +
        (ease curve .easeInOut).evalWith other (1 - t) = 1 := by
  -- the first half is about one curve at a time, the second about its three shapes
  refine ⟨fun easing halgebraic => ?_, fun curve halgebraic => ?_⟩
  · obtain ⟨f, hf⟩ := exists_arithmetic? (α := α) halgebraic
    have hspans := spans_of_arithmetic? hf
    have heval := evalWith_of_arithmetic? other hf
    refine ⟨fun t => ?_, ?_, ?_, fun hbounce s t hle => ?_⟩
    · obtain ⟨hnonneg, hle⟩ := hspans.mapsTo (inTime_mem t)
      rw [heval, heval]
      exact ⟨hnonneg, hle, congrArg f (inTime_inTime t).symm⟩
    · rw [heval, inTime_of_nonpos le_rfl, hspans.start]
    · rw [heval, inTime_of_one_le le_rfl, hspans.finish]
    · rw [heval, heval]
      exact monotoneOn_of_arithmetic? hf hbounce (inTime_mem s) (inTime_mem t) (monotone_inTime hle)
  · obtain ⟨f, hrise⟩ := Curve.exists_rise? (α := α) halgebraic
    have heval := evalWith_of_rise? other hrise
    refine ⟨fun t => ?_, fun t ht => ?_, fun t => ?_⟩
    · rw [heval, heval, inTime_one_sub]
      rfl
    · rw [heval, heval, inTime_two_mul ht]
      exact Shape.mirrored_of_lt (inTime_lt_half ht)
    · rw [heval, heval, inTime_one_sub]
      exact Shape.mirrored_add_mirrored (spans_rise hrise).finish (inTime t)

/-- A bounce in its first half, at three quarters and long after its end; and a steep curve before
and after the middle. -/
theorem algebraic_curves_bounce :
    Curve.bounce.IsAlgebraic ∧ (ease .bounce .easeInOut).IsAlgebraic ∧
      (ease .quint .easeInOut).IsAlgebraic ∧
      (∀ shape, ease .quint .easeInOut ≠ ease .bounce shape) ∧ (2 / 5 : ℚ) < 1 / 2 ∧
      (ease .bounce .easeInOut).evalWith (fun _ t => t) (2 / 5 : ℚ) =
        (ease .bounce .easeIn).evalWith (fun _ t => t) (2 * (2 / 5)) / 2 ∧
      (ease .bounce .easeInOut).evalWith (fun _ t => t) (7 : ℚ) ≤ 1 ∧
      (ease .bounce .easeOut).evalWith (fun _ t => t) (3 / 4 : ℚ) =
        1 - (ease .bounce .easeIn).evalWith (fun _ t => t) (1 - 3 / 4) ∧
      (ease .quint .easeInOut).evalWith (fun _ t => t) (2 / 5 : ℚ) ≤
        (ease .quint .easeInOut).evalWith (fun _ t => t) (3 / 5) := by
  obtain ⟨hcurves, hshapes⟩ := algebraic_curves (α := ℚ) fun _ t => t
  have hbounce : Curve.bounce.IsAlgebraic := by decide
  have hinOut : (ease .bounce .easeInOut).IsAlgebraic := by decide
  have hquint : (ease .quint .easeInOut).IsAlgebraic := by decide
  have hne : ∀ shape, ease .quint .easeInOut ≠ ease .bounce shape := by simp
  have hfirst : (2 / 5 : ℚ) < 1 / 2 := by norm_num
  obtain ⟨hreversed, hhalf, -⟩ := hshapes .bounce hbounce
  exact ⟨hbounce, hinOut, hquint, hne, hfirst, hhalf _ hfirst, ((hcurves _ hinOut).1 7).2.1,
    hreversed _, (hcurves _ hquint).2.2.2 hne (by norm_num)⟩

end AnyTime

end ArtCanvas.Easing
