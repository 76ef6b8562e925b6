import Mathlib.Computability.RegularExpressions
import ArtCanvas.Proofs.Decimal.Written

/-!
# How coordinates are written

A coordinate is written as short as three decimal places allow: no zero in front of its digits, none
at the end of its fraction, no point without a fraction, and no minus in front of zero. What it
writes is the number of thousandths nearest to the exact value, and the even one of two.

* `Decimal.numeral`: the grammar of the texts.
* `Decimal.thousandthsText_mem_numeral`: a number of thousandths is written in this grammar.
* `Decimal.IsNearestThousandth`: the number of thousandths that a value is rounded to.
* `Decimal.trimmed_fixed`: what is written is what is left of three decimal places.
* `Decimal.coordinate_shortest_nearest`: all of this for each `Float`.
-/

namespace ArtCanvas.Decimal

/-! ### The grammar -/

section Grammar

open RegularExpression

/-- One of some characters. -/
def oneOf (cs : List Char) : RegularExpression Char := (cs.map char).sum

/-- A digit, but not zero. -/
def nonzeroDigit : RegularExpression Char := oneOf ['1', '2', '3', '4', '5', '6', '7', '8', '9']

/-- A digit. -/
def digit : RegularExpression Char := char '0' + nonzeroDigit

/-- Something that may be left out. -/
def maybe (r : RegularExpression Char) : RegularExpression Char := 1 + r

/-- Digits, zero or without a zero in front. -/
def wholeNumeral : RegularExpression Char := char '0' + nonzeroDigit * star digit

/-- A point and up to three digits behind it, the last of which is not zero. -/
def fractionNumeral : RegularExpression Char :=
  char '.' * (maybe digit * maybe digit * nonzeroDigit)

/-- A minus or none, digits, and a fraction or none. -/
def numeral : RegularExpression Char :=
  maybe (char '-') * wholeNumeral * maybe fractionNumeral

theorem mem_oneOf {c : Char} {cs : List Char} (h : c ∈ cs) : [c] ∈ (oneOf cs).matches' := by
  induction cs with
  | nil => cases h
  | cons c' cs ih =>
    change [c] ∈ (char c').matches' + (oneOf cs).matches'
    rcases List.mem_cons.mp h with rfl | h
    · exact Or.inl rfl
    · exact Or.inr (ih h)

theorem nil_mem_maybe (r : RegularExpression Char) : [] ∈ (maybe r).matches' := Or.inl rfl

theorem mem_maybe {r : RegularExpression Char} {cs : List Char} (h : cs ∈ r.matches') :
    cs ∈ (maybe r).matches' := Or.inr h

theorem digitChar_mem_nonzeroDigit {d : ℕ} (hd : d < 10) (hpos : d ≠ 0) :
    [Nat.digitChar d] ∈ nonzeroDigit.matches' := by
  have h : ∀ d < 10, d ≠ 0 → Nat.digitChar d ∈ ['1', '2', '3', '4', '5', '6', '7', '8', '9'] := by
    decide
  exact mem_oneOf (h d hd hpos)

theorem digitChar_mem_digit {d : ℕ} (hd : d < 10) : [Nat.digitChar d] ∈ digit.matches' := by
  by_cases hzero : d = 0
  · subst hzero
    exact Or.inl rfl
  · exact Or.inr (digitChar_mem_nonzeroDigit hd hzero)

/-- The digits of a number have no zero in front. -/
theorem exists_toDigits_eq {n : ℕ} (hn : n ≠ 0) :
    ∃ d < 10, d ≠ 0 ∧ ∃ ds ∈ (star digit).matches', Nat.toDigits 10 n = Nat.digitChar d :: ds := by
  induction n using Nat.strong_induction_on with
  | h n ih =>
    rcases Nat.lt_or_ge n 10 with hlt | hge
    · exact ⟨n, hlt, hn, [], Language.nil_mem_kstar _, Nat.toDigits_of_lt_base hlt⟩
    · -- the digits in front of the last one are those of a tenth of the number
      obtain ⟨d, hd, hpos, ds, hds, hfront⟩ := ih (n / 10) (by omega) (by omega)
      obtain ⟨pieces, rfl, hpieces⟩ := Language.mem_kstar.mp hds
      refine ⟨d, hd, hpos, (pieces ++ [[Nat.digitChar (n % 10)]]).flatten, ?_, ?_⟩
      · refine Language.join_mem_kstar fun piece hpiece => ?_
        rcases List.mem_append.mp hpiece with hpiece | hpiece
        · exact hpieces piece hpiece
        · rw [List.mem_singleton.mp hpiece]
          exact digitChar_mem_digit (Nat.mod_lt n (by norm_num))
      · rw [Nat.toDigits_of_base_le (by norm_num) hge, hfront, List.flatten_append,
          List.flatten_singleton, List.cons_append]

/-- The digits before the point make a whole numeral. -/
theorem wholeDigits_mem_wholeNumeral (units : ℕ) :
    wholeDigits 3 units ∈ wholeNumeral.matches' := by
  unfold wholeDigits
  by_cases hzero : units / pow10 3 = 0
  · rw [hzero]
    exact Or.inl rfl
  · obtain ⟨d, hd, hpos, ds, hds, heq⟩ := exists_toDigits_eq hzero
    rw [heq]
    exact Or.inr ⟨[Nat.digitChar d], digitChar_mem_nonzeroDigit hd hpos, ds, hds, rfl⟩

theorem digitChar_beq_zero {d : ℕ} (hd : d < 10) : (Nat.digitChar d == '0') = (d == 0) := by
  have h : ∀ d < 10, (Nat.digitChar d == '0') = (d == 0) := by decide
  exact h d hd

/-- Digits that may be left out, and one that is not zero, are a fraction. -/
theorem pointed_mem {front front' : List Char} {d : ℕ} (hfront : front ∈ (maybe digit).matches')
    (hfront' : front' ∈ (maybe digit).matches') (hd : d < 10) (hpos : d ≠ 0) :
    pointed (front ++ front' ++ [Nat.digitChar d]) ∈ (maybe fractionNumeral).matches' := by
  have hpointed : pointed (front ++ front' ++ [Nat.digitChar d]) =
      '.' :: (front ++ front' ++ [Nat.digitChar d]) := by simp [pointed]
  rw [hpointed]
  exact mem_maybe ⟨['.'], rfl, _, ⟨front ++ front', ⟨front, hfront, front', hfront', rfl⟩,
    _, digitChar_mem_nonzeroDigit hd hpos, rfl⟩, rfl⟩

/-- What is left of three digits ends in the last one that is not zero. -/
theorem pointed_fractionDigits_mem (units : ℕ) :
    pointed (fractionDigits units) ∈ (maybe fractionNumeral).matches' := by
  have hlt : ∀ n, n % 10 < 10 := fun n => Nat.mod_lt n (by norm_num)
  have hdigit : ∀ n, [Nat.digitChar (n % 10)] ∈ (maybe digit).matches' := fun n =>
    mem_maybe (digitChar_mem_digit (hlt n))
  have hnone := nil_mem_maybe digit
  have hdrop : ∀ (ds : List Char) n, (ds ++ [Nat.digitChar (n % 10)]).rdropWhile (· == '0') =
      if n % 10 = 0 then ds.rdropWhile (· == '0') else ds ++ [Nat.digitChar (n % 10)] := by
    intro ds n
    rw [List.rdropWhile_concat]
    simp only [digitChar_beq_zero (hlt n), beq_iff_eq]
  unfold fractionDigits
  -- the third digit is kept, or only two are, or only one, or none
  rw [lastDigits, hdrop]
  split_ifs with hlast
  · rw [lastDigits, hdrop]
    split_ifs with hmiddle
    · rw [lastDigits, hdrop]
      split_ifs with hfirst
      · exact nil_mem_maybe _
      · exact pointed_mem hnone hnone (hlt _) hfirst
    · exact pointed_mem hnone (hdigit _) (hlt _) hmiddle
  · exact pointed_mem (hdigit _) (hdigit _) (hlt _) hlast

/-- A number of thousandths is written in the grammar. -/
theorem thousandthsText_mem_numeral (negative : Bool) (units : ℕ) :
    thousandthsText negative units ∈ numeral.matches' := by
  have hsign : ∀ ds : List Char, ∃ sign ∈ (maybe (char '-')).matches',
      signed (negative && units != 0) ds = sign ++ ds := by
    intro ds
    cases negative && units != 0 with
    | true => exact ⟨['-'], mem_maybe rfl, rfl⟩
    | false => exact ⟨[], nil_mem_maybe _, rfl⟩
  rw [thousandthsText_eq]
  obtain ⟨sign, hmem, heq⟩ := hsign (wholeDigits 3 units ++ pointed (fractionDigits units))
  rw [heq, ← List.append_assoc]
  exact ⟨sign ++ wholeDigits 3 units,
    ⟨sign, hmem, _, wholeDigits_mem_wholeNumeral units, rfl⟩, _,
    pointed_fractionDigits_mem units, rfl⟩

end Grammar

/-! ### The nearest number of thousandths -/

section Rounding

/-- The number of thousandths that is nearest to a value, and the even one of two. -/
structure IsNearestThousandth (value : ℚ) (k : ℤ) : Prop where
  le : ∀ j : ℤ, |value - k / 1000| ≤ |value - j / 1000|
  even : ∀ j : ℤ, j ≠ k → |value - j / 1000| = |value - k / 1000| → Even k

/-- No other number of thousandths is as near as one at no more than half a thousandth, but for one
on the other side of a value halfway between the two. -/
theorem half_le_of_ne {value : ℚ} {j k : ℤ} (hk : |value - k / 1000| ≤ 1 / 2000) (hne : j ≠ k) :
    1 / 2000 ≤ |value - j / 1000| := by
  have hone : (1 : ℚ) ≤ |(j : ℚ) - k| := by
    exact_mod_cast Int.one_le_abs (sub_ne_zero.mpr hne)
  have hapart : |(j : ℚ) / 1000 - k / 1000| = |(j : ℚ) - k| / 1000 := by
    rw [← sub_div, abs_div, abs_of_pos (by norm_num : (0 : ℚ) < 1000)]
  have htriangle : |(j : ℚ) / 1000 - k / 1000| ≤ |value - j / 1000| + |value - k / 1000| := by
    rw [abs_sub_comm value (j / 1000)]
    exact abs_sub_le _ value _
  linarith

/-- A value has one nearest number of thousandths. -/
theorem IsNearestThousandth.unique {value : ℚ} {j k : ℤ} (hj : IsNearestThousandth value j)
    (hk : IsNearestThousandth value k) : j = k := by
  by_contra hne
  have hsame : |value - j / 1000| = |value - k / 1000| := le_antisymm (hj.le k) (hk.le j)
  obtain ⟨m, hm⟩ := hk.even j hne hsame
  obtain ⟨n, hn⟩ := hj.even k (Ne.symm hne) hsame.symm
  -- the two are at the same distance, on one side or on both sides
  rcases abs_eq_abs.mp hsame with heq | heq
  · refine hne (Int.cast_injective (α := ℚ) ?_)
    linarith
  · -- the value is the number in the middle, which is nearer
    have hmiddle : value - ((m + n : ℤ) : ℚ) / 1000 = 0 := by
      rw [hm, hn] at heq
      push_cast at heq ⊢
      linarith
    have hle := hk.le (m + n)
    rw [hmiddle, abs_zero] at hle
    have hzero := abs_eq_zero.mp (le_antisymm hle (abs_nonneg _))
    rw [hzero, neg_zero] at heq
    refine hne (Int.cast_injective (α := ℚ) ?_)
    linarith

/-- Half a thousandth away there may be another number of thousandths as near, so that the even one
is to be taken; elsewhere the nearest one is the only one. -/
theorem isNearestThousandth_of_le {value : ℚ} {k : ℤ} (hle : |value - k / 1000| ≤ 1 / 2000)
    (heven : |value - k / 1000| = 1 / 2000 → Even k) : IsNearestThousandth value k where
  le j := by
    by_cases hne : j = k
    · rw [hne]
    · exact hle.trans (half_le_of_ne hle hne)
  even j hne heq := heven (le_antisymm hle (heq ▸ half_le_of_ne hle hne))

/-- A number halfway between two multiples leaves half of the divisor. -/
theorem two_mul_mod_of_half {n w den : ℕ} (hden : 0 < den) (h : 2 * n = 2 * (w * den) + den) :
    2 * (n % den) = den := by
  have hsplit : n = w * den + (n - w * den) := by omega
  have hmod : n % den = n - w * den := by
    conv_lhs => rw [hsplit]
    rw [Nat.mul_add_mod', Nat.mod_eq_of_lt (by omega)]
  omega

/-- Halfway between two numbers of thousandths the even one is taken. -/
theorem Dyadic.even_units_of_half {d : Dyadic}
    (h : |(d.units 3 : ℚ) / 1000 - (d.num : ℚ) / d.den| = 1 / 2000) : Even (d.units 3) := by
  have hpos := d.den_pos
  have hden : (0 : ℚ) < d.den := by exact_mod_cast hpos
  have hquotient : (d.num : ℚ) / d.den * d.den = d.num := div_mul_cancel₀ _ hden.ne'
  have hhalf : 2 * (d.units 3 * d.den) = 2 * (d.num * 1000) + d.den ∨
      2 * (d.num * 1000) = 2 * (d.units 3 * d.den) + d.den := by
    rcases (abs_eq (by norm_num)).mp h with heq | heq
    · left
      have hvalue : (d.num : ℚ) / d.den = (2 * d.units 3 - 1) / 2000 := by linarith
      rw [hvalue] at hquotient
      have hcast : (2 : ℚ) * (d.units 3 * d.den) = 2 * (d.num * 1000) + d.den := by
        linarith
      exact_mod_cast hcast
    · right
      have hvalue : (d.num : ℚ) / d.den = (2 * d.units 3 + 1) / 2000 := by linarith
      rw [hvalue] at hquotient
      have hcast : (2 : ℚ) * (d.num * 1000) = 2 * (d.units 3 * d.den) + d.den := by
        linarith
      exact_mod_cast hcast
  -- either way the remainder is half of the divisor
  refine Nat.even_iff.mpr (roundDiv_toEven_of_half _ _ ?_)
  change 2 * (d.num * 1000 % d.den) = d.den
  rcases hhalf with hbelow | habove
  · obtain ⟨w, hw⟩ : ∃ w, d.units 3 = w + 1 := by
      refine Nat.exists_eq_succ_of_ne_zero fun hzero => ?_
      rw [hzero] at hbelow
      omega
    rw [hw, Nat.add_one_mul w d.den] at hbelow
    have hhalf : 2 * (d.num * 1000) = 2 * (w * d.den) + d.den := by omega
    exact two_mul_mod_of_half hpos hhalf
  · exact two_mul_mod_of_half hpos habove

/-- The thousandths of a `Float`, as a whole number. -/
def signedUnits (x : Float) : ℤ :=
  (if (Dyadic.ofFloat x).negative then -1 else 1) * (Dyadic.ofFloat x).units 3

/-- A float as thousandths is its units over a thousand. -/
theorem thousandths_eq (x : Float) : thousandths x = signedUnits x / 1000 := by
  rw [thousandths, signedUnits]
  push_cast
  rfl

/-- A `Float` is rounded to the nearest number of thousandths. -/
theorem isNearestThousandth_signedUnits (x : Float) :
    IsNearestThousandth (exact x) (signedUnits x) := by
  refine isNearestThousandth_of_le ?_ fun hhalf => ?_
  · rw [abs_sub_comm, ← thousandths_eq]
    exact abs_thousandths_sub_exact x
  · rw [abs_sub_comm, ← thousandths_eq, thousandths, exact, Dyadic.value_eq, mul_div_assoc,
      ← mul_sub, abs_sign_mul] at hhalf
    have heven : Even ((Dyadic.ofFloat x).units 3 : ℤ) := by
      exact_mod_cast Dyadic.even_units_of_half hhalf
    exact heven.mul_left _

/-- What is written is no minus in front of a zero. -/
theorem thousandthsText_ne_minus_zero (negative : Bool) (units : ℕ) :
    thousandthsText negative units ≠ ['-', '0'] := by
  intro h
  have hread := number?_thousandthsText negative units
  have hzero : number? (String.ofList ['-', '0']) = some 0 := by
    rw [number?, String.toList_ofList]
    change some (-1 * (0 : ℕ) / 10 ^ 0 : ℚ) = some 0
    norm_num
  rw [h, hzero] at hread
  have hunits : units = 0 := by
    have := Option.some.inj hread
    cases negative <;> simpa using this.symm
  rw [hunits] at h
  cases negative <;> exact absurd h (by decide)

end Rounding

/-! ### From three places to the shortest text -/

section Trimming

/-- A text of a number, shortened: without the zeros at the end of a fraction, without a point that
nothing follows, and without a minus in front of zero. -/
def trimmed (text : String) : String :=
  let cs := text.toList
  let cs := if '.' ∈ cs then (cs.rdropWhile (· == '0')).rdropWhile (· == '.') else cs
  if cs = ['-', '0'] then "0" else String.ofList cs

/-- Characters that are dropped at the end are not dropped before one that is kept. -/
theorem rdropWhile_append_of_not {p : Char → Bool} {a : Char} (ha : p a = false)
    (front back : List Char) :
    (front ++ a :: back).rdropWhile p = front ++ a :: back.rdropWhile p := by
  induction back using List.reverseRecOn with
  | nil => rw [List.rdropWhile_concat_neg _ _ _ (by simp [ha]), List.rdropWhile_nil]
  | append_singleton back b ih =>
    rw [← List.cons_append, ← List.append_assoc, List.rdropWhile_concat, List.rdropWhile_concat, ih]
    split_ifs with hb
    · rfl
    · rw [List.append_assoc, List.cons_append]

/-- No point is dropped behind digits. -/
theorem rdropWhile_point_of_digits {front ds : List Char} (hds : ∀ c ∈ ds, c.isDigit = true)
    (hsome : ds ≠ []) : (front ++ ds).rdropWhile (· == '.') = front ++ ds := by
  obtain ⟨ds, c, rfl⟩ := (List.eq_nil_or_concat' ds).resolve_left hsome
  have hpoint : (c == '.') = false := by
    refine beq_eq_false_iff_ne.mpr fun heq => ?_
    have hdigit := hds c (by simp)
    rw [heq] at hdigit
    cases hdigit
  rw [← List.append_assoc, List.rdropWhile_concat_neg _ _ _ (by simp [hpoint])]

/-- What three places are shortened to, before the sign is looked at. -/
theorem rdropWhile_places (negative : Bool) (units : ℕ) :
    ((signed negative (wholeDigits 3 units ++ ['.'] ++ lastDigits 3 units)).rdropWhile
      (· == '0')).rdropWhile (· == '.') =
      signed negative (wholeDigits 3 units ++ pointed (fractionDigits units)) := by
  have hsigned : ∀ ds : List Char, signed negative ds = signed negative [] ++ ds := by
    cases negative <;> exact fun _ => rfl
  have hwhole : ∀ c ∈ wholeDigits 3 units, c.isDigit = true :=
    fun _ => isDigit_of_mem_wholeDigits
  have hfraction : ∀ c ∈ fractionDigits units, c.isDigit = true := fun c hc =>
    isDigit_of_mem_lastDigits ((List.rdropWhile_prefix _ _).subset hc)
  rw [hsigned, hsigned (_ ++ pointed _), List.append_assoc _ ['.'], ← List.append_assoc,
    List.singleton_append, rdropWhile_append_of_not rfl, ← fractionDigits]
  generalize signed negative [] = sign
  -- the point is dropped only where no digit behind it is left
  cases hempty : fractionDigits units with
  | nil =>
    rw [List.rdropWhile_concat_pos _ _ _ rfl,
      rdropWhile_point_of_digits hwhole Nat.toDigits_ne_nil]
    exact (congrArg (sign ++ ·) (List.append_nil _)).symm
  | cons c ds =>
    have hdigits : ∀ d ∈ c :: ds, d.isDigit = true := hempty ▸ hfraction
    have hsplit : sign ++ wholeDigits 3 units ++ '.' :: c :: ds =
        sign ++ wholeDigits 3 units ++ ['.'] ++ c :: ds := (List.append_assoc _ ['.'] _).symm
    rw [hsplit, rdropWhile_point_of_digits hdigits (List.cons_ne_nil _ _), ← hsplit,
      List.append_assoc]
    rfl

/-- Three places and a sign, shortened, are a number of thousandths. -/
theorem trimmed_places (negative : Bool) (units : ℕ) :
    trimmed (String.ofList
      (signed negative (wholeDigits 3 units ++ ['.'] ++ lastDigits 3 units))) =
      String.ofList (thousandthsText negative units) := by
  have hpoint :
      '.' ∈ signed negative (wholeDigits 3 units ++ ['.'] ++ lastDigits 3 units) := by
    cases negative <;> simp [signed]
  rw [trimmed, String.toList_ofList]
  rw [if_pos hpoint, rdropWhile_places]
  -- only zero may have lost its sign
  by_cases hzero : units = 0
  · subst hzero
    cases negative <;> rfl
  · have hsign : (negative && units != 0) = negative := by simp [hzero]
    have heq := thousandthsText_eq negative units
    rw [hsign] at heq
    rw [← heq, if_neg (thousandthsText_ne_minus_zero _ _)]

/-- A `Float` is written with three decimal places, and shortened. -/
theorem trimmed_fixed {x : Float} (h : x.isFinite = true) :
    trimmed (fixed 3 x) = coordinate x := by
  rw [coordinate, if_pos h, fixed, if_pos h]
  exact trimmed_places _ _

end Trimming

/-! ### Coordinates -/

/-- A finite coordinate is written as a numeral, but not as zero with a minus. The numeral writes
the number of thousandths that is nearest to the exact value, and the even one of two, and it is
what is left of three decimal places. Zero is written for what is not finite. -/
theorem coordinate_shortest_nearest (x : Float) :
    (x.isFinite = true →
      (coordinate x).toList ∈ numeral.matches'
        ∧ coordinate x ≠ "-0"
        ∧ (∃ k : ℤ, number? (coordinate x) = some (k / 1000 : ℚ)
          ∧ (∀ j : ℤ, IsNearestThousandth (exact x) j ↔ j = k)
          ∧ |(k / 1000 : ℚ) - exact x| ≤ 1 / 2000)
        ∧ coordinate x = trimmed (fixed 3 x))
      ∧ (x.isFinite = false → coordinate x = "0") := by
  refine ⟨fun h => ⟨?_, ?_, ⟨signedUnits x, ?_, fun j => ⟨fun hj => ?_, ?_⟩, ?_⟩, ?_⟩, fun h => ?_⟩
  · rw [coordinate, if_pos h, String.toList_ofList]
    exact thousandthsText_mem_numeral _ _
  · rw [coordinate, if_pos h]
    exact fun heq => thousandthsText_ne_minus_zero _ _ (String.ofList_injective heq)
  · rw [number?_coordinate h, thousandths_eq]
  · exact hj.unique (isNearestThousandth_signedUnits x)
  · rintro rfl
    exact isNearestThousandth_signedUnits x
  · rw [← thousandths_eq]
    exact abs_thousandths_sub_exact x
  · exact (trimmed_fixed h).symm
  · rw [coordinate, if_neg (by simp [h])]

/-- Minus one sixteenth is halfway between two numbers of thousandths, and a quotient of zeros is no
number. -/
theorem coordinate_shortest_nearest_sixteenth :
    ((-0.0625 : Float).isFinite = true
      ∧ coordinate (-0.0625) = "-0.062"
      ∧ (coordinate (-0.0625)).toList ∈ numeral.matches'
      ∧ coordinate (-0.0625) ≠ "-0"
      ∧ (∃ k : ℤ, number? (coordinate (-0.0625)) = some (k / 1000 : ℚ)
        ∧ (∀ j : ℤ, IsNearestThousandth (exact (-0.0625)) j ↔ j = k)
        ∧ |(k / 1000 : ℚ) - exact (-0.0625)| ≤ 1 / 2000)
      ∧ coordinate (-0.0625) = trimmed (fixed 3 (-0.0625)))
      ∧ (0.0 / 0.0 : Float).isFinite = false ∧ coordinate (0.0 / 0.0) = "0" := by
  have hfinite : (-0.0625 : Float).isFinite = true := by decide +kernel
  have hnan : (0.0 / 0.0 : Float).isFinite = false := by decide +kernel
  exact ⟨⟨hfinite, by decide +kernel, (coordinate_shortest_nearest (-0.0625)).1 hfinite⟩, hnan,
    (coordinate_shortest_nearest (0.0 / 0.0)).2 hnan⟩

end ArtCanvas.Decimal
