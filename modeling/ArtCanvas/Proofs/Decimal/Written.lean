import Mathlib.Data.List.DropRight
import ArtCanvas.Decimal.Fixed
import ArtCanvas.Decimal.Reading
import ArtCanvas.Proofs.Decimal.Characters
import ArtCanvas.Proofs.Scalar.Binary64

/-!
# The numbers that coordinates write

A coordinate is written with three decimal places at most. Read as a decimal number, the text is the
whole number of thousandths that is nearest to the exact value of the coordinate.

* `Decimal.number?`: the number that a text writes.
* `Decimal.thousandths`: a `Float`, rounded to thousandths.
* `Decimal.written`: the number that a coordinate writes.
* `Decimal.number?_coordinate`: the first is the second, for the text of a coordinate.
* `Decimal.abs_thousandths_sub_exact`, `Decimal.thousandths_eq_zero_iff`: how far this is from the
  exact value, and when it is zero.
-/

namespace ArtCanvas.Decimal

/-- The number that a text writes with digits, and a point in them or not, and a minus in front or
not. -/
def number? (text : String) : Option ℚ :=
  let (negative, cs) := takeSign text.toList
  match readMantissa? cs with
  | some (whole, fraction, []) =>
    some ((if negative then -1 else 1) * (ofDigits (ofDigits 0 whole) fraction : ℚ)
      / 10 ^ fraction.length)
  | _ => none

/-- A `Float`, rounded to thousandths. -/
def thousandths (x : Float) : ℚ :=
  let d := Dyadic.ofFloat x
  (if d.negative then -1 else 1) * d.units 3 / 1000

section Digits

/-- The digits of a number are read back as the number. -/
theorem ofDigits_toDigits (n : ℕ) : ofDigits 0 (Nat.toDigits 10 n) = n :=
  Nat.ofDigitChars_ten_toDigits

/-- Digits are read one after the other. -/
theorem ofDigits_append (start : ℕ) (ds ds' : List Char) :
    ofDigits start (ds ++ ds') = ofDigits (ofDigits start ds) ds' := List.foldl_append

/-- A digit multiplies what was read by ten. -/
theorem ofDigits_digitChar (start : ℕ) {d : ℕ} (hd : d < 10) :
    ofDigits start [Nat.digitChar d] = 10 * start + d := by
  have h : ∀ d < 10, (Nat.digitChar d).toNat - '0'.toNat = d := by decide
  exact congrArg (10 * start + ·) (h d hd)

/-- A fixed number of digits is read back as the remainder. -/
theorem ofDigits_lastDigits (start places n : ℕ) :
    ofDigits start (lastDigits places n) = start * 10 ^ places + n % 10 ^ places := by
  induction places generalizing n with
  | zero => simp [lastDigits, ofDigits, Nat.mod_one]
  | succ places ih =>
    rw [lastDigits, ofDigits_append, ih, ofDigits_digitChar _ (Nat.mod_lt n (by norm_num))]
    have := Nat.mod_mul (a := 10) (b := 10 ^ places) (x := n)
    rw [pow_succ, mul_comm (10 ^ places) 10, this]
    ring

/-- Zeros multiply what was read by a power of ten. -/
theorem ofDigits_replicate_zero (start k : ℕ) :
    ofDigits start (List.replicate k '0') = start * 10 ^ k := by
  induction k generalizing start with
  | zero => simp [ofDigits]
  | succ k ih =>
    change ofDigits (10 * start + 0) (List.replicate k '0') = _
    rw [ih, add_zero, pow_succ]
    ring

/-- A fixed number of digits is that many. -/
theorem length_lastDigits (places n : ℕ) : (lastDigits places n).length = places := by
  induction places generalizing n with
  | zero => rfl
  | succ places ih => rw [lastDigits, List.length_append, ih, List.length_singleton]

/-- A fraction is shortened by the zeros at its end. -/
theorem exists_rdropWhile (ds : List Char) :
    ∃ k, ds = ds.rdropWhile (· == '0') ++ List.replicate k '0' := by
  refine ⟨(ds.rtakeWhile (· == '0')).length, ?_⟩
  have hzeros : ds.rtakeWhile (· == '0') = List.replicate (ds.rtakeWhile (· == '0')).length '0' :=
    List.eq_replicate_of_mem fun c hc => by simpa using List.mem_rtakeWhile_imp hc
  rw [← hzeros, List.rdropWhile_append_rtakeWhile]

end Digits

section Reading

variable {ds rest : List Char}

/-- Digits are taken up to the first other character. -/
theorem takeDigits_append (hds : ∀ c ∈ ds, c.isDigit = true)
    (hrest : ∀ c ∈ rest.head?, c.isDigit = false) : takeDigits (ds ++ rest) = (ds, rest) := by
  unfold takeDigits
  rw [List.takeWhile_append_of_pos hds, List.dropWhile_append_of_pos hds]
  cases rest with
  | nil => simp
  | cons c rest => simp [hrest c rfl]

/-- A sign that was written in front is read back. -/
theorem takeSign_signed (negative : Bool) {c : Char} (hc : c.isDigit = true) :
    takeSign (signed negative (c :: ds)) = (negative, c :: ds) := by
  cases negative with
  | true => rfl
  | false =>
    change takeSign (c :: ds) = _
    unfold takeSign
    split
    next heq => cases heq; cases hc
    next heq => cases heq; cases hc
    next => rfl

/-- The last three digits of a number of thousandths, without zeros at the end. -/
def fractionDigits (units : ℕ) : List Char := (lastDigits 3 units).rdropWhile (· == '0')

/-- Digits behind a point, unless there are none. -/
def pointed (fraction : List Char) : List Char :=
  (if fraction.isEmpty then [] else ['.']) ++ fraction

/-- A coordinate is written as a sign, whole digits, and a fraction without zeros at its end. -/
theorem thousandthsText_eq (negative : Bool) (units : ℕ) :
    thousandthsText negative units =
      signed (negative && units != 0) (wholeDigits 3 units ++ pointed (fractionDigits units)) := by
  rw [pointed, ← List.append_assoc]
  rfl

/-- Digits with a point read as those before and those behind it. -/
theorem readMantissa?_pointed (units : ℕ) :
    readMantissa? (wholeDigits 3 units ++ pointed (fractionDigits units)) =
      some (wholeDigits 3 units, fractionDigits units, []) := by
  have hwhole : ∀ c ∈ wholeDigits 3 units, c.isDigit = true :=
    fun _ => isDigit_of_mem_wholeDigits
  have hsome : wholeDigits 3 units ≠ [] := Nat.toDigits_ne_nil
  have hfraction : ∀ c ∈ fractionDigits units, c.isDigit = true := fun c hc =>
    isDigit_of_mem_lastDigits ((List.rdropWhile_prefix _ _).subset hc)
  generalize fractionDigits units = fraction at hfraction ⊢
  cases fraction with
  | nil =>
    rw [show pointed [] = [] from rfl, readMantissa?, takeDigits_append hwhole (by simp)]
    simp [hsome]
  | cons c fraction =>
    have hpointed : pointed (c :: fraction) = '.' :: c :: fraction := rfl
    -- the digits in front end at the point, and those behind it at the end of the text
    have hdot : ∀ d ∈ ('.' :: c :: fraction).head?, d.isDigit = false := by
      rintro d ⟨⟩
      rfl
    have hread : takeDigits (c :: fraction ++ []) = (c :: fraction, []) :=
      takeDigits_append hfraction (by simp)
    rw [List.append_nil] at hread
    rw [hpointed, readMantissa?, takeDigits_append hwhole hdot]
    simp [hread, hsome]

/-- The digits of thousandths, with zeros at the end left out, write the thousandths. -/
theorem ofDigits_fractionDigits (units : ℕ) :
    (ofDigits (ofDigits 0 (wholeDigits 3 units)) (fractionDigits units) : ℚ) /
      10 ^ (fractionDigits units).length = units / 1000 := by
  obtain ⟨k, hk⟩ := exists_rdropWhile (lastDigits 3 units)
  have hlength : (fractionDigits units).length + k = 3 := by
    have hsum := congrArg List.length hk
    rw [length_lastDigits, List.length_append, List.length_replicate] at hsum
    exact hsum.symm
  -- with the zeros put back, all digits together write the thousandths
  have hunits :
      ofDigits (ofDigits 0 (wholeDigits 3 units)) (fractionDigits units) * 10 ^ k = units := by
    rw [← ofDigits_replicate_zero, ← ofDigits_append, fractionDigits, ← hk, ofDigits_lastDigits,
      wholeDigits, ofDigits_toDigits]
    exact Nat.div_add_mod' units (10 ^ 3)
  have hthousand : (1000 : ℚ) = 10 ^ (fractionDigits units).length * 10 ^ k := by
    rw [← pow_add, hlength]
    norm_num
  have hnonzero : (10 : ℚ) ^ k ≠ 0 := pow_ne_zero k (by norm_num)
  conv_rhs => rw [← hunits, hthousand, Nat.cast_mul, Nat.cast_pow, Nat.cast_ofNat]
  exact (mul_div_mul_right _ _ hnonzero).symm

/-- A whole number of thousandths is written as what it is. -/
theorem number?_thousandthsText (negative : Bool) (units : ℕ) :
    number? (String.ofList (thousandthsText negative units)) =
      some ((if negative then -1 else 1 : ℚ) * units / 1000) := by
  obtain ⟨c, cs, hwhole⟩ : ∃ c cs, wholeDigits 3 units = c :: cs :=
    List.exists_cons_of_ne_nil Nat.toDigits_ne_nil
  have hc : c.isDigit = true := isDigit_of_mem_wholeDigits (hwhole ▸ List.mem_cons_self)
  have hsign : takeSign (thousandthsText negative units) =
      (negative && units != 0, wholeDigits 3 units ++ pointed (fractionDigits units)) := by
    rw [thousandthsText_eq, hwhole]
    exact takeSign_signed _ hc
  unfold number?
  rw [String.toList_ofList, hsign]
  dsimp only
  rw [readMantissa?_pointed]
  dsimp only
  rw [mul_div_assoc, ofDigits_fractionDigits, mul_div_assoc]
  -- zero has no sign
  by_cases hzero : units = 0
  · simp [hzero]
  · simp [hzero]

end Reading

section Rounding

/-- What is written for a `Float` is the number of thousandths that it is rounded to. -/
theorem number?_coordinate {x : Float} (h : x.isFinite = true) :
    number? (coordinate x) = some (thousandths x) := by
  rw [coordinate, if_pos h]
  exact number?_thousandthsText _ _

/-- What is not finite is written as zero. -/
theorem number?_coordinate_of_not_finite {x : Float} (h : x.isFinite = false) :
    number? (coordinate x) = some 0 := by
  have hzero : number? (String.ofList (thousandthsText false 0)) = some 0 := by
    rw [number?_thousandthsText]
    norm_num
  rw [coordinate, if_neg (by simp [h])]
  exact hzero

/-- Whatever its value, a coordinate writes a number. -/
theorem isSome_number?_coordinate (x : Float) : (number? (coordinate x)).isSome = true := by
  cases hfinite : x.isFinite with
  | true => rw [number?_coordinate hfinite]; rfl
  | false => rw [number?_coordinate_of_not_finite hfinite]; rfl

/-- The number that is read where a coordinate is written. -/
def written (x : Float) : ℚ := (number? (coordinate x)).get (isSome_number?_coordinate x)

/-- The written value of a finite float is a number of thousandths. -/
theorem written_eq {x : Float} (h : x.isFinite = true) : written x = thousandths x :=
  Option.get_of_eq_some _ (number?_coordinate h)

/-- The value of a float as a fraction with a sign. -/
theorem Dyadic.value_eq (d : Dyadic) :
    d.value = (if d.negative then -1 else 1) * ((d.num : ℚ) / d.den) := by
  rw [value, num, den, pow2, pow2, mul_assoc]
  congr 1
  rw [Nat.cast_mul, mul_div_assoc]
  congr 1
  rcases le_total 0 d.exponent with h | h
  · obtain ⟨k, hk⟩ := Int.eq_ofNat_of_zero_le h
    rw [hk]
    simp
  · obtain ⟨k, hk⟩ := Int.exists_eq_neg_ofNat h
    rw [hk]
    simp

/-- Thousandths are nearest to the exact ones. -/
theorem Dyadic.units_near (d : Dyadic) :
    2 * (d.num * 1000) ≤ 2 * (d.units 3 * d.den) + d.den ∧
      2 * (d.units 3 * d.den) ≤ 2 * (d.num * 1000) + d.den :=
  roundDiv_near .toEven (d.num * pow10 3) d.den d.den_pos

/-- Thousandths are near the exact value. -/
theorem Dyadic.abs_units_sub (d : Dyadic) :
    |(d.units 3 : ℚ) / 1000 - (d.num : ℚ) / d.den| ≤ 1 / 2000 := by
  have hden : (0 : ℚ) < d.den := by exact_mod_cast d.den_pos
  obtain ⟨hlow, hhigh⟩ := d.units_near
  have hlow' : 2 * ((d.num : ℚ) * 1000) ≤ 2 * (d.units 3 * d.den) + d.den := by
    exact_mod_cast hlow
  have hhigh' : 2 * ((d.units 3 : ℚ) * d.den) ≤ 2 * (d.num * 1000) + d.den := by
    exact_mod_cast hhigh
  -- both bounds are about the quotient, times the denominator
  have hquotient : (d.num : ℚ) / d.den * d.den = d.num := div_mul_cancel₀ _ hden.ne'
  generalize (d.num : ℚ) / d.den = q at hquotient ⊢
  rw [← hquotient] at hlow' hhigh'
  have hlow'' : 2 * q * 1000 ≤ 2 * d.units 3 + 1 := by
    refine le_of_mul_le_mul_right ?_ hden
    linarith
  have hhigh'' : 2 * (d.units 3 : ℚ) ≤ 2 * q * 1000 + 1 := by
    refine le_of_mul_le_mul_right ?_ hden
    linarith
  rw [abs_le]
  constructor <;> linarith

/-- There are no thousandths in half of one, nor in less. -/
theorem Dyadic.units_eq_zero_iff (d : Dyadic) :
    d.units 3 = 0 ↔ (d.num : ℚ) / d.den ≤ 1 / 2000 := by
  have hden : (0 : ℚ) < d.den := by exact_mod_cast d.den_pos
  have hpos := d.den_pos
  -- in whole numbers, the bound is half of a thousandth
  have hle : (d.num : ℚ) / d.den ≤ 1 / 2000 ↔ 2 * (d.num * 1000) ≤ d.den := by
    rw [div_le_div_iff₀ hden (by norm_num), ← Nat.cast_le (α := ℚ)]
    push_cast
    constructor <;> intro h <;> linarith
  rw [hle]
  obtain ⟨hlow, hhigh⟩ := d.units_near
  constructor
  · intro hzero
    rw [hzero] at hlow
    omega
  · intro hsmall
    have hle_one : d.units 3 ≤ 1 := by
      by_contra hmore
      have := Nat.mul_le_mul_right d.den (not_le.mp hmore)
      omega
    rcases hsmall.lt_or_eq with hlt | heq
    · by_contra hzero
      have hone : d.units 3 = 1 := by omega
      rw [hone] at hhigh
      omega
    · -- half a thousandth goes to the even one
      have hmod : d.num * 1000 % d.den = d.num * 1000 := Nat.mod_eq_of_lt (by omega)
      have heven : d.units 3 % 2 = 0 :=
        roundDiv_toEven_of_half (d.num * 1000) d.den (by rw [hmod, heq])
      omega

theorem abs_sign_mul (negative : Bool) (v : ℚ) : |(if negative then -1 else 1) * v| = |v| := by
  cases negative <;> simp

/-- The written number is near the exact value. -/
theorem abs_thousandths_sub_exact (x : Float) : |thousandths x - exact x| ≤ 1 / 2000 := by
  rw [thousandths, exact, Dyadic.value_eq, mul_div_assoc, ← mul_sub, abs_sign_mul]
  exact Dyadic.abs_units_sub _

/-- Zero is written for what is no more than half a thousandth. -/
theorem thousandths_eq_zero_iff (x : Float) : thousandths x = 0 ↔ |exact x| ≤ 1 / 2000 := by
  rw [exact, Dyadic.value_eq, abs_sign_mul,
    abs_of_nonneg (div_nonneg (Nat.cast_nonneg _) (Nat.cast_nonneg _)),
    ← Dyadic.units_eq_zero_iff, thousandths]
  cases (Dyadic.ofFloat x).negative <;> simp

end Rounding

end ArtCanvas.Decimal
