import ArtCanvas.Proofs.Scalar.Binary64

/-!
# Arithmetic of binary numbers

A sum, difference, product or quotient of binary numbers is computed to more digits than a mantissa
has, with two bits for what is left, and then rounded to the nearest number. So the exact value of
the result differs from that of the operation by half a unit of the last place at most, and where
bits can hold the value of the operation, the result is exact.

* `Binary64.Stands`: the number that a mantissa and the two bits behind it stand for.
* `Binary64.Stands.shiftRight`, `Binary64.Stands.near`: shifting and rounding the mantissa.
* `Binary64.IsPlace`: the last place of a number, and what rounding to it does.
* `Binary64.roundsTo_add`, ..., `Binary64.roundsTo_div`: the operations on unpacked bits.
* `Binary64.rounds_add`, ..., `Binary64.rounds_div`: the operations on `Float`.
-/

namespace ArtCanvas.Binary64

open Decimal (exact)
open Float.Model (Format UnpackedFloat totalExponent)
open Float.Model.UnpackedFloat (Sign Accuracy ExtendedMantissa accuracyOfFraction
  roundWithAccuracy shiftToTargetExponent shiftToExponent)

section Mantissa

/-- What the two bits behind a mantissa say about the rest of a number: nothing, less than a half,
one half, or more. -/
def IsRest (round sticky : Bool) (rest : ℚ) : Prop :=
  match round, sticky with
  | false, false => rest = 0
  | false, true => 0 < rest ∧ rest < 1 / 2
  | true, false => rest = 1 / 2
  | true, true => 1 / 2 < rest ∧ rest < 1

/-- A mantissa with two more bits stands for a number. -/
def Stands (em : ExtendedMantissa) (u : ℚ) : Prop :=
  IsRest em.roundBit em.stickyBit (u - em.mantissa)

variable {em : ExtendedMantissa} {u : ℚ}

/-- A whole number stands for itself, with nothing cut off. -/
theorem stands_exact (m : ℕ) : Stands (.ofMantissaAndAccuracy m .exact) m := sub_self _

/-- The accuracy of a fraction tells how it compares with one half. -/
theorem stands_accuracyOfFraction (m : ℕ) {k d : ℕ} (hk : k < d) :
    Stands (.ofMantissaAndAccuracy m (accuracyOfFraction k d)) (m + k / d : ℚ) := by
  have hd : (0 : ℚ) < d := by exact_mod_cast Nat.zero_lt_of_lt hk
  have hlt : (k : ℚ) < d := by exact_mod_cast hk
  have hrest : (m + k / d : ℚ) - m = k / d := add_sub_cancel_left _ _
  unfold accuracyOfFraction
  by_cases hzero : k = 0
  · rw [if_pos hzero]
    change (m + k / d : ℚ) - m = 0
    rw [hrest, hzero, Nat.cast_zero, zero_div]
  · have hpos : (0 : ℚ) < k := by exact_mod_cast Nat.pos_of_ne_zero hzero
    rw [if_neg hzero]
    -- one case for each value of the two bits that is left
    rcases lt_trichotomy (2 * k) d with hcompare | hcompare | hcompare
    · rw [Nat.compare_eq_lt.mpr hcompare]
      have hcompare' : 2 * (k : ℚ) < d := by exact_mod_cast hcompare
      change 0 < (m + k / d : ℚ) - m ∧ (m + k / d : ℚ) - m < 1 / 2
      rw [hrest, div_lt_div_iff₀ hd two_pos]
      exact ⟨div_pos hpos hd, by linarith⟩
    · rw [Nat.compare_eq_eq.mpr hcompare]
      have hcompare' : 2 * (k : ℚ) = d := by exact_mod_cast hcompare
      change (m + k / d : ℚ) - m = 1 / 2
      rw [hrest, div_eq_div_iff hd.ne' two_ne_zero]
      linarith
    · rw [Nat.compare_eq_gt.mpr hcompare]
      have hcompare' : (d : ℚ) < 2 * k := by exact_mod_cast hcompare
      change 1 / 2 < (m + k / d : ℚ) - m ∧ (m + k / d : ℚ) - m < 1
      rw [hrest, div_lt_div_iff₀ two_pos hd, div_lt_iff₀ hd, one_mul]
      exact ⟨by linarith, hlt⟩

/-- The quotient of whole numbers, and how its rest compares with one half. -/
theorem stands_fraction (n : ℕ) {d : ℕ} (hd : 0 < d) :
    Stands (.ofMantissaAndAccuracy (n / d) (accuracyOfFraction (n % d) d)) (n / d : ℚ) := by
  have hparts : (n / d : ℚ) = (n / d : ℕ) + (n % d : ℕ) / d := by
    have hd' : (d : ℚ) ≠ 0 := Nat.cast_ne_zero.mpr hd.ne'
    have hsplit : (d : ℚ) * (n / d : ℕ) + (n % d : ℕ) = n := by exact_mod_cast Nat.div_add_mod n d
    rw [div_eq_iff hd', add_mul, div_mul_cancel₀ _ hd', mul_comm, hsplit]
  rw [hparts]
  exact stands_accuracyOfFraction _ (Nat.mod_lt n hd)

/-- Half of a number, with the last digit of the mantissa as the first bit behind it. -/
theorem Stands.shiftRightOne (h : Stands em u) : Stands em.shiftRightOne (u / 2) := by
  obtain ⟨m, round, sticky⟩ := em
  obtain ⟨q, rfl | rfl⟩ := Nat.even_or_odd' m
  · have hhalf : 2 * q / 2 = q := by omega
    cases round <;> cases sticky <;>
      simp [Stands, IsRest, ExtendedMantissa.shiftRightOne, hhalf] at h ⊢ <;>
      first | linarith | constructor <;> linarith
  · have hhalf : (2 * q + 1) / 2 = q := by omega
    cases round <;> cases sticky <;>
      simp [Stands, IsRest, ExtendedMantissa.shiftRightOne, hhalf, Nat.add_mod] at h ⊢ <;>
      first | linarith | constructor <;> linarith

/-- A shift to the right divides what a mantissa stands for, whatever was cut off before. -/
theorem Stands.shiftRight (h : Stands em u) (k : ℕ) : Stands (em >>> k) (u / 2 ^ k) := by
  induction k with
  | zero => rwa [pow_zero, div_one]
  | succ k ih =>
    rw [pow_succ, ← div_div]
    exact ih.shiftRightOne

/-- The mantissa that is rounded to is nearest to the number. -/
theorem Stands.near (h : Stands em u) : |em.roundedMantissa - u| ≤ 1 / 2 := by
  obtain ⟨m, round, sticky⟩ := em
  rw [abs_le]
  cases round <;> cases sticky <;>
    simp [Stands, IsRest, ExtendedMantissa.roundedMantissa, ExtendedMantissa.accuracy,
      Accuracy.roundToNearestEven] at h ⊢
  case true.false =>
    rcases Nat.mod_two_eq_zero_or_one m with heven | hodd
    · simp [heven]
      constructor <;> linarith
    · simp [hodd]
      constructor <;> linarith
  all_goals constructor <;> linarith

/-- A whole number is rounded to itself. -/
theorem Stands.roundedMantissa_eq {n : ℕ} (h : Stands em n) : em.roundedMantissa = n := by
  have hnear := abs_le.mp h.near
  have hlt : (em.roundedMantissa : ℚ) < (n + 1 : ℕ) := by
    push_cast
    linarith
  have hlt' : (n : ℚ) < (em.roundedMantissa + 1 : ℕ) := by
    push_cast
    linarith
  have := Nat.cast_lt.mp hlt
  have := Nat.cast_lt.mp hlt'
  omega

/-- The mantissa is the whole part. -/
theorem Stands.floor (h : Stands em u) : (em.mantissa : ℚ) ≤ u ∧ u < em.mantissa + 1 := by
  obtain ⟨m, round, sticky⟩ := em
  cases round <;> cases sticky <;> simp [Stands, IsRest] at h ⊢ <;> constructor <;> linarith

end Mantissa

section Place

/-- How far numbers next to zero are rounded at most: half of the least positive one. -/
def underflow : ℚ := 2 ^ (-1075 : ℤ)

theorem underflow_pos : 0 < underflow := zpow_pos two_pos _

/-- A place that is some digits higher. -/
theorem two_zpow_add (t : ℤ) (k : ℕ) : (2 : ℚ) ^ (t + k) = 2 ^ k * 2 ^ t := by
  rw [zpow_add₀ two_ne_zero, zpow_natCast, mul_comm]

/-- The last place that a mantissa can have for a positive number: the number has 53 digits from
there on, or fewer if there is no smaller place. -/
structure IsPlace (v : ℚ) (t : ℤ) : Prop where
  nonneg : 0 ≤ v
  le_place : -1074 ≤ t
  le_value : t = -1074 ∨ 2 ^ (t + 52) ≤ v
  value_lt : v < 2 ^ (t + 53)

variable {v : ℚ} {t : ℤ} {r : ℕ}

namespace IsPlace

variable (h : IsPlace v t) (hr : |r - v / 2 ^ t| ≤ 1 / 2)

include h

/-- Below the largest exponent there is a place. -/
theorem place_le (hv : v < 2 ^ (1023 : ℤ)) : t ≤ 970 := by
  rcases h.le_value with rfl | hle
  · norm_num
  · have hlt := (zpow_lt_zpow_iff_right₀ (one_lt_two (α := ℚ))).mp (hle.trans_lt hv)
    omega

/-- What fits is a whole number of places. -/
theorem exists_natCast {m : ℕ} {e : ℤ} (hfits : Fits m e) (hv : v = m * 2 ^ e) :
    ∃ n : ℕ, v / 2 ^ t = n := by
  have hte : t ≤ e := by
    rcases h.le_value with rfl | hle
    · exact hfits.le_exponent
    · have hlt : (2 : ℚ) ^ (t + 52) < 2 ^ (e + 53) := by
        calc (2 : ℚ) ^ (t + 52) ≤ m * 2 ^ e := hle.trans_eq hv
          _ < 2 ^ 53 * 2 ^ e := by
            have hm : (m : ℚ) < 2 ^ 53 := by exact_mod_cast hfits.mantissa_lt
            gcongr
          _ = 2 ^ (e + 53) := (two_zpow_add e 53).symm
      have := (zpow_lt_zpow_iff_right₀ (one_lt_two (α := ℚ))).mp hlt
      omega
  refine ⟨m * 2 ^ (e - t).toNat, ?_⟩
  rw [hv, mul_div_assoc, ← zpow_sub₀ two_ne_zero, Nat.cast_mul, Nat.cast_pow, ← zpow_natCast,
    Int.toNat_of_nonneg (by omega), Nat.cast_ofNat]

include hr

/-- Rounding at the place of a number gives at most 53 bits, or the power of two after them. -/
theorem rounded_le : r ≤ 2 ^ 53 := by
  have hw : v / 2 ^ t < 2 ^ 53 := by
    rw [div_lt_iff₀ (by positivity)]
    calc v < 2 ^ (t + 53) := h.value_lt
      _ = 2 ^ 53 * 2 ^ t := two_zpow_add t 53
  have hlt : (r : ℚ) < (2 ^ 53 + 1 : ℕ) := by
    push_cast
    linarith [(abs_le.mp hr).2]
  exact Nat.lt_succ_iff.mp (Nat.cast_lt.mp hlt)

/-- A rounded mantissa has all its 53 bits, unless the number is too small for them. -/
theorem le_rounded : t = -1074 ∨ 2 ^ 52 ≤ r := by
  refine h.le_value.imp_right fun hle => ?_
  have hw : 2 ^ 52 ≤ v / 2 ^ t := by
    rw [le_div_iff₀ (by positivity)]
    calc 2 ^ 52 * 2 ^ t = (2 : ℚ) ^ (t + 52) := (two_zpow_add t 52).symm
      _ ≤ v := hle
  have hlt : ((2 ^ 52 : ℕ) : ℚ) < (r + 1 : ℕ) := by
    push_cast
    linarith [(abs_le.mp hr).1]
  exact Nat.lt_succ_iff.mp (Nat.cast_lt.mp hlt)

/-- Rounding to the place moves a number by little. -/
theorem near : |r * 2 ^ t - v| ≤ v / 2 ^ 53 + underflow := by
  have hpos : (0 : ℚ) < 2 ^ t := by positivity
  have hmoved : |r * 2 ^ t - v| ≤ 2 ^ t / 2 := by
    have hfactor : r * 2 ^ t - v = (r - v / 2 ^ t) * 2 ^ t := by
      rw [sub_mul, div_mul_cancel₀ _ hpos.ne']
    rw [hfactor, abs_mul, abs_of_pos hpos]
    linarith [mul_le_mul_of_nonneg_right hr hpos.le]
  refine hmoved.trans ?_
  rcases h.le_value with rfl | hle
  · have hleast : (2 : ℚ) ^ (-1074 : ℤ) / 2 = underflow := (zpow_sub_one₀ two_ne_zero (-1074)).symm
    rw [hleast]
    exact le_add_of_nonneg_left (div_nonneg h.nonneg (by positivity))
  · have hplace : (2 : ℚ) ^ t / 2 ≤ v / 2 ^ 53 := by
      have hsplit : (2 : ℚ) ^ t / 2 = 2 ^ (t + 52) / 2 ^ 53 := by
        have hdigits : (2 : ℚ) ^ (t + 52) = 2 ^ 52 * 2 ^ t := two_zpow_add t 52
        rw [hdigits]
        ring
      rw [hsplit]
      gcongr
    exact hplace.trans (le_add_of_nonneg_right underflow_pos.le)

end IsPlace

end Place

section Rounding

/-- The last place of numbers of a given size. -/
theorem targetExponent_eq_max (size : ℤ) :
    Format.binary64.targetExponent size = max (size - 53) (-1074) := rfl

/-- The last place of a number with a given mantissa and exponent. -/
theorem targetExponent_eq (m : ℕ) (e : ℤ) :
    Format.binary64.targetExponent (totalExponent m e) = max (m.log2 + e - 52) (-1074) := by
  rw [targetExponent_eq_max, totalExponent]
  congr 1
  ring

/-- The place of a number that is given by a mantissa, what is behind it, and an exponent. -/
theorem isPlace {em : ExtendedMantissa} {u : ℚ} {e : ℤ} (h : Stands em u)
    (hem : 0 < em.mantissa ∨ e ≤ -1074) :
    IsPlace (u * 2 ^ e) (max (em.mantissa.log2 + e - 52) (-1074)) := by
  have hu : (em.mantissa : ℚ) ≤ u ∧ u < em.mantissa + 1 := h.floor
  have hpos : (0 : ℚ) < 2 ^ e := by positivity
  have hnonneg : 0 ≤ u * 2 ^ e := mul_nonneg ((Nat.cast_nonneg _).trans hu.1) hpos.le
  -- what is behind the mantissa does not make up for one more digit
  have hlog : (u : ℚ) < 2 ^ (em.mantissa.log2 + 1) := by
    have : em.mantissa + 1 ≤ 2 ^ (em.mantissa.log2 + 1) := Nat.lt_log2_self
    exact hu.2.trans_le (by exact_mod_cast this)
  have hlt : u * 2 ^ e < 2 ^ (em.mantissa.log2 + e - 52 + 53) := by
    calc u * 2 ^ e < 2 ^ (em.mantissa.log2 + 1) * 2 ^ e := by gcongr
      _ = 2 ^ (em.mantissa.log2 + e - 52 + 53) := by
        rw [← two_zpow_add]
        congr 1
        push_cast
        ring
  refine ⟨hnonneg, le_max_right _ _, ?_, hlt.trans_le ?_⟩
  · rcases le_total (em.mantissa.log2 + e - 52) (-1074) with hle | hle
    · exact Or.inl (max_eq_right hle)
    · -- a place above the least one is not that of zero
      have hmantissa : 0 < em.mantissa := by
        by_contra hzero
        obtain hzero : em.mantissa = 0 := by omega
        rw [hzero, Nat.log2_zero] at hle
        omega
      right
      calc (2 : ℚ) ^ (max (em.mantissa.log2 + e - 52) (-1074) + 52)
          = 2 ^ em.mantissa.log2 * 2 ^ e := by
            rw [max_eq_left hle, ← zpow_natCast, ← zpow_add₀ two_ne_zero, sub_add_cancel]
        _ ≤ em.mantissa * 2 ^ e := by
            have : (2 : ℚ) ^ em.mantissa.log2 ≤ em.mantissa := by
              exact_mod_cast Nat.log2_self_le hmantissa.ne'
            gcongr
        _ ≤ u * 2 ^ e := by
            gcongr
            exact hu.1
  · exact zpow_le_zpow_right₀ one_lt_two.le (by omega)

/-- A second shift takes care of a carry. -/
theorem shift_settled {r : ℕ} {t : ℤ} (hr : r ≤ 2 ^ 53) (ht : -1074 ≤ t) :
    shiftToTargetExponent Format.binary64 r t .exact =
      if r = 2 ^ 53 then (⟨2 ^ 52, false, false⟩, t + 1) else (⟨r, false, false⟩, t) := by
  unfold shiftToTargetExponent
  rw [targetExponent_eq]
  dsimp only
  split
  next hcarry =>
    -- a carry has one digit too many, which is a zero
    have htarget : max ((r.log2 : ℤ) + t - 52) (-1074) = t + 1 := by
      rw [hcarry, Nat.log2_two_pow]
      omega
    rw [htarget, hcarry, shiftToExponent]
    have hone : (t + 1 - t).toNat = 1 := by omega
    rw [hone]
    rfl
  next hcarry =>
    -- otherwise the digits are few enough to stay where they are
    have hlog : r.log2 ≤ 52 := by
      by_cases hzero : r = 0
      · simp [hzero]
      · have := (Nat.log2_lt (k := 53) hzero).mpr (by omega)
        omega
    have htarget : max ((r.log2 : ℤ) + t - 52) (-1074) ≤ t := by omega
    have hzero : (max ((r.log2 : ℤ) + t - 52) (-1074) - t).toNat = 0 := by omega
    rw [shiftToExponent, hzero, Nat.cast_zero, add_zero]
    rfl

/-- How a mantissa was cut off does not change the mantissa. -/
theorem mantissa_ofMantissaAndAccuracy (m : ℕ) (acc : Accuracy) :
    (ExtendedMantissa.ofMantissaAndAccuracy m acc).mantissa = m := by
  rcases acc with _ | _ | _ | _ <;> rfl

/-- A sign as a factor. -/
def signed (sign : Sign) (v : ℚ) : ℚ := sign.apply 1 * v

/-- The value of a scaled mantissa, with its sign in front. -/
theorem scaled_eq (sign : Sign) (m : ℕ) (e : ℤ) : scaled sign m e = signed sign (m * 2 ^ e) := by
  cases sign <;> simp [scaled, signed, Sign.apply]

@[simp]
theorem abs_signed (sign : Sign) (v : ℚ) : |signed sign v| = |v| := by
  cases sign <;> simp [signed, Sign.apply]

/-- A sign in front of two values is one in front of their difference. -/
theorem signed_sub (sign : Sign) (v w : ℚ) : signed sign v - signed sign w = signed sign (v - w) :=
  (mul_sub _ _ _).symm

/-- Bits hold the number that is nearest to `v`: the difference is small, and there is none if bits
can hold `v` itself. -/
structure RoundsTo (a : UnpackedFloat) (v : ℚ) : Prop where
  fit : IsFit a
  near : |valueOf a - v| ≤ |v| / 2 ^ 53 + underflow
  same : ∀ b, IsFit b → valueOf b = v → valueOf a = v

/-- A number that fits is rounded to itself. -/
theorem RoundsTo.self {a : UnpackedFloat} (h : IsFit a) : RoundsTo a (valueOf a) where
  fit := h
  near := by
    rw [sub_self, abs_zero]
    exact add_nonneg (div_nonneg (abs_nonneg _) (by norm_num)) underflow_pos.le
  same _ _ _ := rfl

/-- The absolute value of what bits hold is a mantissa with an exponent. -/
theorem exists_abs_valueOf {b : UnpackedFloat} (h : IsFit b) :
    ∃ m e, Fits m e ∧ |valueOf b| = m * 2 ^ e := by
  rcases b with _ | _ | _ | ⟨sign, m, e, hm⟩
  · exact h.elim
  · exact h.elim
  · exact ⟨0, -1074, ⟨by norm_num, le_rfl, by norm_num, Or.inl rfl⟩, by simp [valueOf]⟩
  · refine ⟨m, e, h, ?_⟩
    rw [valueOf, scaled_eq, abs_signed]
    exact abs_of_nonneg (mul_nonneg (Nat.cast_nonneg m) (zpow_pos two_pos e).le)

/-- Where the first shift and its rounding lead to a mantissa at its place, this is the result, but
for a carry. -/
theorem roundWithAccuracy_of_shift {v : ℚ} {m r : ℕ} {e t : ℤ} {acc : Accuracy}
    {em : ExtendedMantissa} (sign : Sign)
    (hfirst : shiftToTargetExponent Format.binary64 m e acc = (em, t)) (hr : em.roundedMantissa = r)
    (hplace : IsPlace v t) (hnear : |r - v / 2 ^ t| ≤ 1 / 2) (hv : v < 2 ^ (1023 : ℤ)) :
    IsFit (roundWithAccuracy Format.binary64 sign m e acc) ∧
      valueOf (roundWithAccuracy Format.binary64 sign m e acc) = scaled sign r t := by
  have ht := hplace.place_le hv
  have hsecond := shift_settled (hplace.rounded_le hnear) hplace.le_place
  unfold roundWithAccuracy
  rw [hfirst]
  dsimp only
  rw [hr, hsecond]
  by_cases hcarry : r = 2 ^ 53
  · -- a carry makes one digit more, and the last one of them is zero
    rw [if_pos hcarry]
    have hle := hplace.le_place
    refine ⟨⟨by norm_num, by omega, by omega, Or.inr le_rfl⟩, ?_⟩
    change scaled sign (2 ^ 52) (t + 1) = _
    rw [scaled_eq, scaled_eq, hcarry, zpow_add_one₀ two_ne_zero]
    congr 1
    push_cast
    ring
  · rw [if_neg hcarry]
    by_cases hzero : r = 0
    · simp [hzero, IsFit, valueOf, scaled_eq, signed]
    · have hlt := hplace.rounded_le hnear
      simp only [hzero, dite_false]
      exact ⟨⟨by omega, hplace.le_place, by omega, hplace.le_rounded hnear⟩, rfl⟩

/-- Rounding a mantissa, with what is behind it. -/
theorem roundsTo_roundWithAccuracy {u : ℚ} {m : ℕ} {e : ℤ} {acc : Accuracy} (sign : Sign)
    (h : Stands (.ofMantissaAndAccuracy m acc) u)
    (hm : 0 < m ∨ e ≤ -1074) (he : e ≤ max (m.log2 + e - 52) (-1074))
    (hv : u * 2 ^ e < 2 ^ (1023 : ℤ)) :
    RoundsTo (roundWithAccuracy Format.binary64 sign m e acc) (signed sign (u * 2 ^ e)) := by
  have hplace := isPlace (e := e) h (by rwa [mantissa_ofMantissaAndAccuracy])
  rw [mantissa_ofMantissaAndAccuracy] at hplace
  generalize htarget : max ((m.log2 : ℤ) + e - 52) (-1074) = t at he hplace
  -- the first shift goes to the place
  obtain ⟨k, hk⟩ : ∃ k : ℕ, t = e + k := ⟨(t - e).toNat, by omega⟩
  have hfirst : shiftToTargetExponent Format.binary64 m e acc =
      (ExtendedMantissa.ofMantissaAndAccuracy m acc >>> k, t) := by
    unfold shiftToTargetExponent
    rw [targetExponent_eq, htarget, shiftToExponent]
    have hdiff : (t - e).toNat = k := by omega
    rw [hdiff, hk]
  have hstands : Stands (ExtendedMantissa.ofMantissaAndAccuracy m acc >>> k)
      (u * 2 ^ e / 2 ^ t) := by
    have hshift : u * 2 ^ e / 2 ^ t = u / 2 ^ k := by
      rw [hk, two_zpow_add]
      exact mul_div_mul_right _ _ (zpow_pos (two_pos (α := ℚ)) e).ne'
    rw [hshift]
    exact h.shiftRight k
  generalize ExtendedMantissa.ofMantissaAndAccuracy m acc >>> k = em at hfirst hstands
  have hnear := hstands.near
  obtain ⟨hfit, hvalue⟩ := roundWithAccuracy_of_shift sign hfirst rfl hplace hnear hv
  refine ⟨hfit, ?_, fun b hb hbv => ?_⟩
  · -- the sign takes no part in the difference
    rw [hvalue, scaled_eq, signed_sub, abs_signed, abs_signed, abs_of_nonneg hplace.nonneg]
    exact hplace.near hnear
  · -- what bits hold is a whole number of places, and these are rounded to themselves
    obtain ⟨m', e', hfits, habs⟩ := exists_abs_valueOf hb
    rw [hbv, abs_signed, abs_of_nonneg hplace.nonneg] at habs
    obtain ⟨n, hn⟩ := hplace.exists_natCast hfits habs
    rw [hn] at hstands
    rw [hvalue, hstands.roundedMantissa_eq, scaled_eq, ← hn,
      div_mul_cancel₀ _ (zpow_pos (two_pos (α := ℚ)) t).ne']

end Rounding

section Operations

open Float.Model.UnpackedFloat (decreaseExponent divCore)

/-- A shift to the left adds to the position of the highest bit. -/
theorem log2_shiftLeft {m : ℕ} (hm : 0 < m) (k : ℕ) : (m <<< k).log2 = m.log2 + k := by
  induction k with
  | zero => rfl
  | succ k ih =>
    rw [Nat.shiftLeft_succ, Nat.log2_two_mul (Nat.shiftLeft_pos_iff.mpr hm).ne', ih, add_assoc]

/-- A larger mantissa makes up for a smaller exponent. -/
theorem shiftLeft_mul_zpow (m k : ℕ) (e : ℤ) :
    ((m <<< k : ℕ) : ℚ) * 2 ^ (e - k) = m * 2 ^ e := by
  have hk : (2 : ℚ) ^ k ≠ 0 := pow_ne_zero k two_ne_zero
  rw [Nat.shiftLeft_eq, zpow_sub₀ two_ne_zero, zpow_natCast, Nat.cast_mul, Nat.cast_pow,
    Nat.cast_ofNat, mul_assoc, mul_div_cancel₀ _ hk]

/-- A lower exponent with a longer mantissa has the same value. -/
theorem scaled_decreaseExponent (sign : Sign) (m : ℕ) {e t : ℤ} (h : t ≤ e) :
    scaled sign (decreaseExponent m e t).1 t = scaled sign m e := by
  obtain ⟨k, rfl⟩ : ∃ k : ℕ, t = e - k := ⟨(e - t).toNat, by omega⟩
  have hk : (e - (e - k)).toNat = k := by omega
  rw [scaled_eq, scaled_eq, decreaseExponent, hk, shiftLeft_mul_zpow]

/-- Rounding a mantissa that nothing is behind. -/
theorem roundsTo_round (sign : Sign) {m : ℕ} {e : ℤ} (hm : 0 < m)
    (hv : (m : ℚ) * 2 ^ e < 2 ^ (1023 : ℤ)) :
    RoundsTo (UnpackedFloat.round Format.binary64 sign m e) (signed sign (m * 2 ^ e)) := by
  unfold UnpackedFloat.round decreaseExponent
  rw [targetExponent_eq]
  dsimp only
  generalize hk : (e - max ((m.log2 : ℤ) + e - 52) (-1074)).toNat = k
  rw [← shiftLeft_mul_zpow m k e] at hv ⊢
  refine roundsTo_roundWithAccuracy sign (stands_exact _) (Or.inl ?_) ?_ hv
  · exact Nat.shiftLeft_pos_iff.mpr hm
  · rw [log2_shiftLeft hm]
    omega

/-- Whole mantissas are rounded correctly, of either sign and at any exponent. -/
theorem roundsTo_normalize (M e : ℤ) (zero : Sign) (hv : |(M : ℚ) * 2 ^ e| < 2 ^ (1023 : ℤ)) :
    RoundsTo (UnpackedFloat.normalize Format.binary64 M e zero) (M * 2 ^ e) := by
  have hpos : (0 : ℚ) < 2 ^ e := by positivity
  have hsize : |(M : ℚ) * 2 ^ e| = M.natAbs * 2 ^ e := by
    rw [abs_mul, abs_of_pos hpos, Nat.cast_natAbs, Int.cast_abs]
  rw [hsize] at hv
  unfold UnpackedFloat.normalize
  -- the sign is taken off first
  rcases lt_trichotomy M 0 with hM | rfl | hM
  · rw [Int.compare_eq_lt.mpr hM]
    have hnat : (-M).toNat = M.natAbs := by omega
    have hvalue : (M : ℚ) * 2 ^ e = signed .negative (M.natAbs * 2 ^ e) := by
      rw [Nat.cast_natAbs, abs_of_neg hM]
      simp [signed, Sign.apply]
    rw [hvalue, ← hnat]
    exact roundsTo_round .negative (by omega) (by rwa [hnat])
  · have hvalue : ((0 : ℤ) : ℚ) * 2 ^ e = valueOf (.zero zero) := by simp [valueOf]
    rw [hvalue]
    exact RoundsTo.self trivial
  · rw [Int.compare_eq_gt.mpr hM]
    have hnat : M.toNat = M.natAbs := by omega
    have hvalue : (M : ℚ) * 2 ^ e = signed .positive (M.natAbs * 2 ^ e) := by
      rw [Nat.cast_natAbs, abs_of_pos hM]
      simp [signed, Sign.apply]
    rw [hvalue, ← hnat]
    exact roundsTo_round .positive (by omega) (by rwa [hnat])

variable {a b : UnpackedFloat}

/-- The negative of a number that fits does so as well. -/
theorem isFit_neg (h : IsFit a) : IsFit a.neg := by
  rcases a with _ | _ | sign | ⟨sign, m, e, hm⟩ <;> exact h

theorem apply_neg (sign : Sign) (n : ℤ) : (-sign).apply n = -sign.apply n := by
  cases sign with
  | negative => exact (neg_neg n).symm
  | positive => rfl

/-- Signs are multiplied apart from the values. -/
theorem signed_mul_signed (sign sign' : Sign) (v w : ℚ) :
    signed sign v * signed sign' w = signed (sign * sign') (v * w) := by
  have happly : (sign * sign').apply 1 = sign.apply 1 * sign'.apply 1 := by
    cases sign <;> cases sign' <;> rfl
  rw [signed, signed, signed, happly, Int.cast_mul]
  ring

/-- Signs are divided apart from the values. -/
theorem signed_div_signed (sign sign' : Sign) (v w : ℚ) :
    signed sign v / signed sign' w = signed (sign / sign') (v / w) := by
  have happly : (sign / sign').apply 1 = sign.apply 1 * sign'.apply 1 := by
    cases sign <;> cases sign' <;> rfl
  have hinv : ((sign'.apply 1 : ℤ) : ℚ)⁻¹ = sign'.apply 1 := by
    cases sign' <;> simp [Sign.apply]
  rw [signed, signed, signed, happly, Int.cast_mul, mul_div_mul_comm,
    div_eq_mul_inv _ (sign'.apply 1 : ℚ), hinv]

/-- The negative of a number has the negative value. -/
theorem valueOf_neg (a : UnpackedFloat) : valueOf a.neg = -valueOf a := by
  rcases a with _ | _ | sign | ⟨sign, m, e, hm⟩
  · rfl
  · rfl
  · rfl
  · change scaled (-sign) m e = -scaled sign m e
    rw [scaled, scaled, apply_neg, Int.cast_neg, neg_mul]

/-- Subtracting is adding what is negated. -/
theorem unpacked_sub_eq (a b : UnpackedFloat) :
    UnpackedFloat.sub Format.binary64 a b = UnpackedFloat.add Format.binary64 a b.neg := by
  rcases a with _ | _ | _ | ⟨sign, m, e, hm⟩ <;>
    rcases b with _ | _ | _ | ⟨sign', m', e', hm'⟩ <;> try rfl
  simp only [UnpackedFloat.sub, UnpackedFloat.add, UnpackedFloat.neg, apply_neg, sub_eq_add_neg]

variable (ha : IsFit a) (hb : IsFit b)

include ha hb

/-- Sums are rounded correctly. -/
theorem roundsTo_add (hv : |valueOf a + valueOf b| < 2 ^ (1023 : ℤ)) :
    RoundsTo (UnpackedFloat.add Format.binary64 a b) (valueOf a + valueOf b) := by
  rcases a with _ | _ | sign | ⟨sign, m, e, hm⟩ <;> try exact False.elim ha
  all_goals rcases b with _ | _ | sign' | ⟨sign', m', e', hm'⟩ <;> try exact False.elim hb
  case zero.zero =>
    rw [show valueOf (.zero sign) + valueOf (.zero sign') = 0 from add_zero 0]
    cases sign <;> cases sign' <;> exact RoundsTo.self (a := .zero _) trivial
  case zero.finite =>
    rw [show valueOf (.zero sign) = 0 from rfl, zero_add]
    exact RoundsTo.self hb
  case finite.zero =>
    rw [show valueOf (.zero sign') = 0 from rfl, add_zero]
    exact RoundsTo.self ha
  case finite.finite =>
    -- both are brought to the smaller exponent, where they are added
    have hvalue : valueOf (.finite sign m e hm) + valueOf (.finite sign' m' e' hm') =
        ((sign.apply (decreaseExponent m e (min e e')).1 +
          sign'.apply (decreaseExponent m' e' (min e e')).1 : ℤ) : ℚ) * 2 ^ min e e' := by
      rw [Int.cast_add, add_mul]
      exact congrArg₂ (· + ·) (scaled_decreaseExponent sign m (min_le_left _ _)).symm
        (scaled_decreaseExponent sign' m' (min_le_right _ _)).symm
    rw [hvalue] at hv ⊢
    exact roundsTo_normalize _ _ .positive hv

/-- Differences are rounded correctly. -/
theorem roundsTo_sub (hv : |valueOf a - valueOf b| < 2 ^ (1023 : ℤ)) :
    RoundsTo (UnpackedFloat.sub Format.binary64 a b) (valueOf a - valueOf b) := by
  rw [sub_eq_add_neg, ← valueOf_neg] at hv ⊢
  rw [unpacked_sub_eq]
  exact roundsTo_add ha (isFit_neg hb) hv

/-- Products are rounded correctly. -/
theorem roundsTo_mul (hv : |valueOf a * valueOf b| < 2 ^ (1023 : ℤ)) :
    RoundsTo (UnpackedFloat.mul Format.binary64 a b) (valueOf a * valueOf b) := by
  rcases a with _ | _ | sign | ⟨sign, m, e, hm⟩ <;> try exact False.elim ha
  all_goals rcases b with _ | _ | sign' | ⟨sign', m', e', hm'⟩ <;> try exact False.elim hb
  case zero.zero =>
    rw [show valueOf (.zero sign) * valueOf (.zero sign') = 0 from mul_zero _]
    exact RoundsTo.self (a := .zero _) trivial
  case zero.finite =>
    rw [show valueOf (.zero sign) = 0 from rfl, zero_mul]
    exact RoundsTo.self (a := .zero _) trivial
  case finite.zero =>
    rw [show valueOf (.zero sign') = 0 from rfl, mul_zero]
    exact RoundsTo.self (a := .zero _) trivial
  case finite.finite =>
    have hvalue : valueOf (.finite sign m e hm) * valueOf (.finite sign' m' e' hm') =
        signed (sign * sign') ((m * m' : ℕ) * 2 ^ (e + e')) := by
      rw [valueOf, valueOf, scaled_eq, scaled_eq, signed_mul_signed, zpow_add₀ two_ne_zero,
        Nat.cast_mul, mul_mul_mul_comm]
    have hpos : 0 < m * m' := Nat.mul_pos hm hm'
    -- one normal factor gives the product all digits; two others put it below the least place
    have hplace : 52 ≤ (m * m').log2 ∨ e + e' ≤ -1074 := by
      rw [Nat.le_log2 hpos.ne']
      have hleft := Nat.le_mul_of_pos_right m hm'
      have hright := Nat.le_mul_of_pos_left m' hm
      have hfit : Fits m e := ha
      have hfit' : Fits m' e' := hb
      rcases hfit.normal with hlow | hnormal
      · rcases hfit'.normal with hlow' | hnormal'
        · omega
        · exact Or.inl (hnormal'.trans hright)
      · exact Or.inl (hnormal.trans hleft)
    rw [hvalue] at hv ⊢
    rw [abs_signed, abs_of_nonneg (mul_nonneg (Nat.cast_nonneg _) (zpow_pos two_pos _).le)] at hv
    exact roundsTo_roundWithAccuracy _ (stands_exact _) (Or.inl hpos) (by omega) hv

omit ha hb in
/-- A quotient is computed to as many digits as a mantissa has, or down to the least place. -/
theorem exists_divCore {m m' : ℕ} (e e' : ℤ) (hm : 0 < m) (hm' : 0 < m') :
    ∃ (k : ℕ) (t : ℤ), t = e - e' - k ∧ (t ≤ -1074 ∨ 2 ^ 52 ≤ (m <<< k) / m') ∧
      divCore Format.binary64 m e m' e' =
        ((m <<< k) / m', t, accuracyOfFraction ((m <<< k) % m') m') := by
  have htarget : Format.binary64.targetExponent (totalExponent m e - totalExponent m' e') =
      max (m.log2 + e - (m'.log2 + e') - 53) (-1074) := by
    rw [targetExponent_eq_max, totalExponent, totalExponent]
    congr 1
    ring
  generalize ht : min (e - e') (max ((m.log2 : ℤ) + e - (m'.log2 + e') - 53) (-1074)) = t
  refine ⟨(e - e' - t).toNat, t, by omega, ?_, ?_⟩
  · generalize hk : (e - e' - t).toNat = k
    refine or_iff_not_imp_left.mpr fun hlarge => ?_
    have hdigits : 53 + m'.log2 ≤ m.log2 + k := by omega
    rw [Nat.le_div_iff_mul_le hm', Nat.shiftLeft_eq]
    calc 2 ^ 52 * m' ≤ 2 ^ 52 * 2 ^ (m'.log2 + 1) :=
          Nat.mul_le_mul_left _ Nat.lt_log2_self.le
      _ = 2 ^ (53 + m'.log2) := by ring
      _ ≤ 2 ^ (m.log2 + k) := Nat.pow_le_pow_right two_pos hdigits
      _ = 2 ^ m.log2 * 2 ^ k := pow_add _ _ _
      _ ≤ m * 2 ^ k := Nat.mul_le_mul_right _ (Nat.log2_self_le hm.ne')
  · unfold divCore
    rw [htarget, ht]

/-- Quotients are rounded correctly. -/
theorem roundsTo_div (hb₀ : valueOf b ≠ 0) (hv : |valueOf a / valueOf b| < 2 ^ (1023 : ℤ)) :
    RoundsTo (UnpackedFloat.div Format.binary64 a b) (valueOf a / valueOf b) := by
  rcases a with _ | _ | sign | ⟨sign, m, e, hm⟩ <;> try exact False.elim ha
  all_goals rcases b with _ | _ | sign' | ⟨sign', m', e', hm'⟩ <;> try exact False.elim hb
  case zero.zero => exact absurd rfl hb₀
  case finite.zero => exact absurd rfl hb₀
  case zero.finite =>
    rw [show valueOf (.zero sign) = 0 from rfl, zero_div]
    exact RoundsTo.self (a := .zero _) trivial
  case finite.finite =>
    obtain ⟨k, t, ht, hplace, hcore⟩ := exists_divCore e e' hm hm'
    have hvalue : valueOf (.finite sign m e hm) / valueOf (.finite sign' m' e' hm') =
        signed (sign / sign') (((m <<< k : ℕ) / m' : ℚ) * 2 ^ t) := by
      rw [valueOf, valueOf, scaled_eq, scaled_eq, signed_div_signed, mul_div_mul_comm,
        ← zpow_sub₀ two_ne_zero, ht, div_mul_eq_mul_div, div_mul_eq_mul_div, shiftLeft_mul_zpow]
    -- the quotient of the shifted mantissas stands for the exact one
    have hstands := stands_fraction (m <<< k) hm'
    unfold UnpackedFloat.div
    rw [hvalue] at hv ⊢
    rw [abs_signed, abs_of_nonneg (mul_nonneg (div_nonneg (Nat.cast_nonneg _) (Nat.cast_nonneg _))
      (zpow_pos two_pos _).le)] at hv
    simp only [hcore]
    refine roundsTo_roundWithAccuracy _ hstands ?_ ?_ hv
    · exact hplace.symm.imp_left fun hlarge => by omega
    · rcases hplace with hlow | hlarge
      · omega
      · have := (Nat.le_log2 (by omega)).mpr hlarge
        omega

end Operations

section Floats

/-- A `Float` is the one nearest to `v`: the difference is small, and there is none if `v` itself is
the value of a `Float`. -/
structure Rounds (x : Float) (v : ℚ) : Prop where
  finite : x.isFinite = true
  near : |exact x - v| ≤ |v| / 2 ^ 53 + underflow
  same : ∀ y : Float, y.isFinite = true → exact y = v → exact x = v

/-- Packing leaves the value as it is. -/
theorem exact_pack {a : UnpackedFloat} (h : IsFit a) :
    (Float.ofModel (Float.Model.pack a)).isFinite = true ∧
      exact (Float.ofModel (Float.Model.pack a)) = valueOf a := by
  have hfinite : (Float.Model.pack a).unpack.isFinite = true ∧
      valueOf (Float.Model.pack a).unpack = valueOf a := by
    rcases a with _ | _ | sign | ⟨sign, m, e, hm⟩ <;> try exact False.elim h
    · cases sign <;> exact ⟨rfl, rfl⟩
    · rw [unpack_pack hm h]
      exact ⟨rfl, rfl⟩
  exact ⟨hfinite.1, (exact_eq_valueOf hfinite.1).trans hfinite.2⟩

/-- A packed number is rounded as its parts are. -/
theorem RoundsTo.rounds {a : UnpackedFloat} {v : ℚ} (h : RoundsTo a v) :
    Rounds (Float.ofModel (Float.Model.pack a)) v := by
  obtain ⟨hfinite, hexact⟩ := exact_pack h.fit
  refine ⟨hfinite, by rw [hexact]; exact h.near, fun y hy hv => ?_⟩
  rw [hexact]
  exact h.same _ (isFit_unpack hy) ((exact_eq_valueOf hy).symm.trans hv)

variable {x y : Float} (hx : x.isFinite = true) (hy : y.isFinite = true)

include hx

/-- Negation is exact. -/
theorem exact_neg : (-x).isFinite = true ∧ exact (-x) = -exact x := by
  have hpack := exact_pack (isFit_neg (isFit_unpack hx))
  rwa [valueOf_neg, ← exact_eq_valueOf hx] at hpack

include hy

/-- A sum of floats is the exact sum, rounded. -/
theorem rounds_add (hv : |exact x + exact y| < 2 ^ (1023 : ℤ)) :
    Rounds (x + y) (exact x + exact y) := by
  rw [exact_eq_valueOf hx, exact_eq_valueOf hy] at hv ⊢
  exact (roundsTo_add (isFit_unpack hx) (isFit_unpack hy) hv).rounds

/-- A difference of floats is the exact difference, rounded. -/
theorem rounds_sub (hv : |exact x - exact y| < 2 ^ (1023 : ℤ)) :
    Rounds (x - y) (exact x - exact y) := by
  rw [exact_eq_valueOf hx, exact_eq_valueOf hy] at hv ⊢
  exact (roundsTo_sub (isFit_unpack hx) (isFit_unpack hy) hv).rounds

/-- A product of floats is the exact product, rounded. -/
theorem rounds_mul (hv : |exact x * exact y| < 2 ^ (1023 : ℤ)) :
    Rounds (x * y) (exact x * exact y) := by
  rw [exact_eq_valueOf hx, exact_eq_valueOf hy] at hv ⊢
  exact (roundsTo_mul (isFit_unpack hx) (isFit_unpack hy) hv).rounds

/-- A quotient of floats is the exact quotient, rounded. -/
theorem rounds_div (hy₀ : exact y ≠ 0) (hv : |exact x / exact y| < 2 ^ (1023 : ℤ)) :
    Rounds (x / y) (exact x / exact y) := by
  rw [exact_eq_valueOf hy] at hy₀
  rw [exact_eq_valueOf hx, exact_eq_valueOf hy] at hv ⊢
  exact (roundsTo_div (isFit_unpack hx) (isFit_unpack hy) hy₀ hv).rounds

end Floats

end ArtCanvas.Binary64
