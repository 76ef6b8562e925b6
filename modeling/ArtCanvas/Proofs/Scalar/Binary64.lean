import Mathlib
import ArtCanvas.Decimal.Binary64
import ArtCanvas.Proofs.Geometry.Unions

/-!
# The numbers that bits stand for

A finite binary number is a whole number times a power of two, with a sign. Its exact value is a
rational number, and numbers compare as their exact values do.

* `Decimal.exact`: the exact value of a `Float`.
* `Binary64.Fits`: the whole numbers and the powers that the bits of a number can hold.
* `Binary64.decode`: what bits stand for, by the parts of their number.
* `Binary64.exact_eq_valueOf`, `Binary64.unpack_pack`: exact values are those of unpacked bits, and
  packing and unpacking changes nothing.
* `Binary64.lt_iff_exact`, `Binary64.le_iff_exact`: the order.
-/

namespace ArtCanvas

namespace Decimal

/-- The number that a sign, a mantissa and an exponent stand for. -/
def Dyadic.value (d : Dyadic) : ℚ := (if d.negative then -1 else 1) * d.mantissa * 2 ^ d.exponent

/-- The exact value of a finite `Float`. -/
def exact (x : Float) : ℚ := (Dyadic.ofFloat x).value

end Decimal

namespace Binary64

open Decimal (Dyadic exact)
open Float.Model (Format UnpackedFloat)
open Float.Model.UnpackedFloat (Sign packComponents unpackMantissa unpackExponent unpackSign)

/-- The number that is written with a mantissa and an exponent. -/
def scaled (sign : Sign) (mantissa : ℕ) (exponent : ℤ) : ℚ := sign.apply mantissa * 2 ^ exponent

/-- The number that unpacked bits stand for, if it is finite. -/
def valueOf : UnpackedFloat → ℚ
  | .finite sign mantissa exponent _ => scaled sign mantissa exponent
  | _ => 0

/-- The mantissas and exponents that bits can hold. -/
structure Fits (mantissa : ℕ) (exponent : ℤ) : Prop where
  mantissa_lt : mantissa < 2 ^ 53
  le_exponent : -1074 ≤ exponent
  exponent_le : exponent ≤ 971
  normal : exponent = -1074 ∨ 2 ^ 52 ≤ mantissa

section Bits

variable (b : BitVec 64)

/-- The mantissa is in the last 52 bits. -/
theorem toNat_unpackMantissa :
    (@unpackMantissa Format.binary64 b).toNat = b.toNat % 2 ^ 52 := by
  simp [unpackMantissa, BitVec.extractLsb, BitVec.extractLsb']

/-- The exponent is in the 11 bits before. -/
theorem toNat_unpackExponent :
    (@unpackExponent Format.binary64 b).toNat = b.toNat / 2 ^ 52 % 2 ^ 11 := by
  simp [unpackExponent, BitVec.extractLsb, BitVec.extractLsb', Nat.shiftRight_eq_div_pow]

/-- The sign is the first bit. -/
theorem toNat_unpackSign :
    (@unpackSign Format.binary64 b).toNat = b.toNat / 2 ^ 63 := by
  have hlt : b.toNat / 2 ^ 63 < 2 := by
    have := b.isLt
    omega
  simp [unpackSign, BitVec.extractLsb, BitVec.extractLsb', Nat.shiftRight_eq_div_pow]
  omega

/-- A normal number has one more bit than its mantissa keeps. -/
theorem toNat_one_append (m : BitVec 52) : (1#1 ++ m).toNat = 2 ^ 52 + m.toNat := by
  rw [BitVec.toNat_append, ← Nat.shiftLeft_add_eq_or_of_lt m.isLt]
  simp [Nat.shiftLeft_eq]

/-- The parts of a float are packed one after the other. -/
theorem toNat_packComponents (sign : Sign) (e : BitVec 11) (m : BitVec 52) :
    (packComponents Format.binary64 sign e m).toNat =
      sign.toBitVec.toNat * 2 ^ 63 + e.toNat * 2 ^ 52 + m.toNat := by
  unfold packComponents
  rw [BitVec.toNat_append, ← Nat.shiftLeft_add_eq_or_of_lt m.isLt, BitVec.toNat_append,
    ← Nat.shiftLeft_add_eq_or_of_lt e.isLt, Nat.shiftLeft_eq, Nat.shiftLeft_eq]
  ring

/-- The sign in the first bit. -/
def signOf (bits : ℕ) : Sign := if bits / 2 ^ 63 = 0 then .positive else .negative

/-- What bits stand for, by the sign, the exponent and the fraction in them. -/
def decode (bits : ℕ) : UnpackedFloat :=
  if bits / 2 ^ 52 % 2 ^ 11 = 2047 then
    if bits % 2 ^ 52 = 0 then .infinity (signOf bits) else .notANumber
  else if bits / 2 ^ 52 % 2 ^ 11 = 0 then
    if h : bits % 2 ^ 52 = 0 then .zero (signOf bits)
    else .finite (signOf bits) (bits % 2 ^ 52) (-1074) (Nat.pos_of_ne_zero h)
  else
    .finite (signOf bits) (2 ^ 52 + bits % 2 ^ 52) ((bits / 2 ^ 52 % 2 ^ 11 : ℕ) - 1075) (by omega)

theorem ofBitVec_unpackSign :
    Sign.ofBitVec (@unpackSign Format.binary64 b) = signOf b.toNat := by
  unfold Sign.ofBitVec signOf
  simp only [← BitVec.toNat_inj, toNat_unpackSign]
  rfl

/-- A float is unpacked as its bits are decoded. -/
theorem unpack_eq : UnpackedFloat.unpack Format.binary64 b = decode b.toNat := by
  unfold UnpackedFloat.unpack decode
  simp only [ofBitVec_unpackSign, ← BitVec.toNat_inj, toNat_unpackExponent, toNat_unpackMantissa,
    toNat_one_append]
  by_cases hsmall : b.toNat / 2 ^ 52 % 2 ^ 11 = 0
  · simp only [hsmall]
    rfl
  · rw [if_neg (c := _ = (0#11).toNat) hsmall, if_neg (c := _ = 0) hsmall]
    rfl

end Bits

section Value

theorem unpack_toModel (x : Float) : x.toModel.unpack = decode x.toBits.toNat :=
  unpack_eq x.toBits.toBitVec

/-- Infinities and what is no number have the largest exponent. -/
theorem isFinite_iff {x : Float} :
    x.isFinite = true ↔ x.toBits.toNat / 2 ^ 52 % 2 ^ 11 ≠ 2047 := by
  change x.toModel.unpack.isFinite = true ↔ _
  rw [unpack_toModel]
  unfold decode
  split_ifs with hmax hfraction hsmall hzero
  · exact iff_of_false (by simp [UnpackedFloat.isFinite]) (not_not_intro hmax)
  · exact iff_of_false (by simp [UnpackedFloat.isFinite]) (not_not_intro hmax)
  · exact iff_of_true rfl hmax
  · exact iff_of_true rfl hmax
  · exact iff_of_true rfl hmax

/-- The sign of bits is that of the exact value. -/
theorem scaled_signOf {bits : ℕ} (hbits : bits < 2 ^ 64) (mantissa : ℕ) (exponent : ℤ) :
    scaled (signOf bits) mantissa exponent =
      Dyadic.value ⟨bits / 2 ^ 63 == 1, mantissa, exponent⟩ := by
  unfold scaled Dyadic.value signOf
  by_cases hzero : bits / 2 ^ 63 = 0
  · rw [if_pos hzero, hzero]
    simp [Sign.apply]
  · have hone : bits / 2 ^ 63 = 1 := by omega
    rw [if_neg hzero, hone]
    simp [Sign.apply]

/-- The exact value is the number that the unpacked bits stand for. -/
theorem exact_eq_valueOf {x : Float} (h : x.isFinite = true) :
    exact x = valueOf x.toModel.unpack := by
  rw [unpack_toModel, decode, if_neg (isFinite_iff.mp h), exact]
  by_cases hsmall : x.toBits.toNat / 2 ^ 52 % 2 ^ 11 = 0
  · have hfields : Dyadic.ofFloat x =
        ⟨x.toBits.toNat / 2 ^ 63 == 1, x.toBits.toNat % 2 ^ 52, -1074⟩ :=
      Dyadic.mk.injEq .. |>.mpr ⟨rfl, if_pos hsmall, if_pos hsmall⟩
    rw [if_pos hsmall, hfields]
    by_cases hzero : x.toBits.toNat % 2 ^ 52 = 0
    · rw [dif_pos hzero, hzero]
      simp [valueOf, Dyadic.value]
    · rw [dif_neg hzero, valueOf, scaled_signOf x.toBits.toNat_lt]
  · have hfields : Dyadic.ofFloat x =
        ⟨x.toBits.toNat / 2 ^ 63 == 1, 2 ^ 52 + x.toBits.toNat % 2 ^ 52,
          (x.toBits.toNat / 2 ^ 52 % 2 ^ 11 : ℕ) - 1075⟩ :=
      Dyadic.mk.injEq .. |>.mpr ⟨rfl, if_neg hsmall, if_neg hsmall⟩
    rw [if_neg hsmall, hfields, valueOf, scaled_signOf x.toBits.toNat_lt]

/-- What is unpacked fits. -/
theorem fits_of_unpack {x : Float} {sign : Sign} {m : ℕ} {e : ℤ} {hm : 0 < m}
    (h : x.toModel.unpack = .finite sign m e hm) : Fits m e := by
  rw [unpack_toModel, decode] at h
  split_ifs at h with hmax hfraction hsmall hzero
  · cases h
    exact ⟨by omega, le_rfl, by omega, Or.inl rfl⟩
  · cases h
    exact ⟨by omega, by omega, by omega, Or.inr (by omega)⟩

/-- Finite bits, put together from a sign, an exponent and a fraction. -/
theorem decode_parts (sign : Sign) {biased fraction : ℕ} (hbiased : biased < 2047)
    (hfraction : fraction < 2 ^ 52) :
    decode (sign.toBitVec.toNat * 2 ^ 63 + biased * 2 ^ 52 + fraction) =
      if biased = 0 then
        if h : fraction = 0 then .zero sign
        else .finite sign fraction (-1074) (Nat.pos_of_ne_zero h)
      else .finite sign (2 ^ 52 + fraction) (biased - 1075) (by omega) := by
  obtain ⟨s, hs⟩ : ∃ s, s = sign.toBitVec.toNat := ⟨_, rfl⟩
  have hlt : s < 2 := hs ▸ sign.toBitVec.isLt
  have hsign : signOf (s * 2 ^ 63 + biased * 2 ^ 52 + fraction) = sign := by
    have hdiv : (s * 2 ^ 63 + biased * 2 ^ 52 + fraction) / 2 ^ 63 = s := by omega
    rw [signOf, hdiv, hs]
    cases sign <;> rfl
  have hmiddle : (s * 2 ^ 63 + biased * 2 ^ 52 + fraction) / 2 ^ 52 % 2 ^ 11 = biased := by omega
  have hlast : (s * 2 ^ 63 + biased * 2 ^ 52 + fraction) % 2 ^ 52 = fraction := by omega
  rw [← hs, decode]
  simp only [hsign, hmiddle, hlast]
  rw [if_neg hbiased.ne]

/-- What fits is unpacked as it was packed. -/
theorem unpack_pack {sign : Sign} {m : ℕ} {e : ℤ} (hm : 0 < m) (h : Fits m e) :
    (Float.Model.pack (.finite sign m e hm)).unpack = .finite sign m e hm := by
  obtain ⟨hlt, hlow, hhigh, hnormal⟩ := h
  have hunpack : (Float.Model.pack (.finite sign m e hm)).unpack =
      decode (UnpackedFloat.pack Format.binary64 (.finite sign m e hm)).toNat := unpack_eq _
  have hbias : e + Format.binary64.exponentBias + Format.binary64.mantissaBitsWithoutImplicit =
      e + 1075 := by
    norm_num [Format.exponentBias, add_assoc]
  have hover : ¬ 2 ^ Format.binary64.exponentBits ≤ (e + 1075).toNat + 1 := by
    change ¬ 2 ^ 11 ≤ _
    omega
  rw [hunpack, UnpackedFloat.pack]
  dsimp only
  rw [hbias, if_neg hover]
  by_cases hlarge : 2 ^ 52 ≤ m
  · -- the first digit is left out, and the exponent says that it is there
    have hlog : m.log2 + 1 = Format.binary64.mantissaBits :=
      congrArg (· + 1) ((Nat.log2_eq_iff hm.ne').mpr ⟨hlarge, hlt⟩)
    rw [if_pos hlog, toNat_packComponents, BitVec.toNat_ofNat, BitVec.toNat_ofNat,
      decode_parts sign (by omega) (Nat.mod_lt _ (by norm_num)), if_neg (by omega),
      UnpackedFloat.finite.injEq]
    exact ⟨rfl, by omega, by omega⟩
  · -- fewer digits are only possible with the least exponent
    have hlog : m.log2 + 1 ≠ Format.binary64.mantissaBits := by
      have := (Nat.log2_lt hm.ne').mpr (not_le.mp hlarge)
      change m.log2 + 1 ≠ 53
      omega
    obtain rfl : e = -1074 := hnormal.resolve_right hlarge
    rw [if_neg hlog, toNat_packComponents, BitVec.toNat_ofNat, BitVec.toNat_ofNat,
      decode_parts sign (by norm_num) (Nat.mod_lt _ (by norm_num)), if_pos (by norm_num),
      dif_neg (by omega), UnpackedFloat.finite.injEq]
    exact ⟨rfl, by omega, rfl⟩

end Value

section Order

open Scalar (rankOf? rank?)

/-- Larger numbers have larger exponents, or equal ones and larger mantissas. -/
theorem mul_zpow_lt {m m' : ℕ} {e e' : ℤ} (h : Fits m e) (h' : Fits m' e')
    (hlt : e < e' ∨ e = e' ∧ m < m') : (m : ℚ) * 2 ^ e < m' * 2 ^ e' := by
  rcases hlt with hlt | ⟨rfl, hlt⟩
  · -- above the least exponent a mantissa has all its digits
    have hnormal : 2 ^ 52 ≤ m' := h'.normal.resolve_left (by have := h.le_exponent; omega)
    calc (m : ℚ) * 2 ^ e
        < 2 ^ 53 * 2 ^ e := by
          have hm : (m : ℚ) < 2 ^ 53 := by exact_mod_cast h.mantissa_lt
          gcongr
      _ = 2 ^ 52 * 2 ^ (e + 1) := by
          rw [zpow_add_one₀ two_ne_zero]
          ring
      _ ≤ m' * 2 ^ e' := by
          have hm' : (2 : ℚ) ^ 52 ≤ m' := by exact_mod_cast hnormal
          gcongr
          · norm_num
          · omega
  · have hm : (m : ℚ) < m' := by exact_mod_cast hlt
    gcongr

/-- What unpacked finite bits can be. -/
def IsFit : UnpackedFloat → Prop
  | .zero _ => True
  | .finite _ mantissa exponent _ => Fits mantissa exponent
  | _ => False

/-- A finite float fits its format. -/
theorem isFit_unpack {x : Float} (h : x.isFinite = true) : IsFit x.toModel.unpack := by
  change x.toModel.unpack.isFinite = true at h
  cases hunpack : x.toModel.unpack with
  | zero => trivial
  | finite sign m e hm => exact fits_of_unpack hunpack
  | infinity => rw [hunpack] at h; cases h
  | notANumber => rw [hunpack] at h; cases h

/-- The values of numbers are in the order of their places. -/
theorem valueOf_lt_of_lt {a b : UnpackedFloat} {r r' : Scalar.Rank} (ha : IsFit a) (hb : IsFit b)
    (hr : rankOf? a = some r) (hr' : rankOf? b = some r') (hlt : r < r') :
    valueOf a < valueOf b := by
  have hpos : ∀ (m : ℕ) (e : ℤ), 0 < m → (0 : ℚ) < m * 2 ^ e := fun m e hm => by positivity
  rcases a with _ | _ | _ | ⟨_ | _, m, e, hm⟩ <;> try exact False.elim ha
  all_goals rcases b with _ | _ | _ | ⟨_ | _, m', e', hm'⟩ <;> try exact False.elim hb
  all_goals
    cases hr
    cases hr'
    simp [Prod.Lex.toLex_lt_toLex] at hlt
    try simp only [valueOf, scaled, Sign.apply, Int.cast_neg, Int.cast_natCast, neg_mul]
  -- the signs decide, unless they agree
  case zero.finite.positive => exact hpos m' e' hm'
  case finite.negative.zero => exact neg_lt_zero.mpr (hpos m e hm)
  case finite.negative.finite.positive =>
    exact (neg_lt_zero.mpr (hpos m e hm)).trans (hpos m' e' hm')
  case finite.negative.finite.negative =>
    exact neg_lt_neg (mul_zpow_lt hb ha (hlt.imp_right fun h => ⟨h.1.symm, h.2⟩))
  case finite.positive.finite.positive => exact mul_zpow_lt ha hb hlt

/-- Equal places are those of equal numbers. -/
theorem valueOf_eq_of_eq {a b : UnpackedFloat} {r : Scalar.Rank} (ha : IsFit a) (hb : IsFit b)
    (hr : rankOf? a = some r) (hr' : rankOf? b = some r) : valueOf a = valueOf b := by
  rcases a with _ | _ | _ | ⟨_ | _, m, e, hm⟩ <;> try exact False.elim ha
  all_goals rcases b with _ | _ | _ | ⟨_ | _, m', e', hm'⟩ <;> try exact False.elim hb
  all_goals
    cases hr
    simp [rankOf?, Prod.ext_iff] at hr'
  case zero.zero => rfl
  case finite.negative.finite.negative => rw [valueOf, valueOf, hr'.1, hr'.2]
  case finite.positive.finite.positive => rw [valueOf, valueOf, hr'.1, hr'.2]

/-- Every finite float has a rank. -/
theorem exists_rank {x : Float} (h : x.isFinite = true) : ∃ r, rank? x = some r := by
  have hfit := isFit_unpack h
  rw [rank?]
  generalize x.toModel.unpack = a at hfit ⊢
  rcases a with _ | _ | _ | ⟨_ | _, m, e, hm⟩ <;> first | exact False.elim hfit | exact ⟨_, rfl⟩

variable {x y : Float}

/-- Finite numbers compare as their exact values do. -/
theorem lt_iff_exact (hx : x.isFinite = true) (hy : y.isFinite = true) :
    x < y ↔ exact x < exact y := by
  obtain ⟨r, hr⟩ := exists_rank hx
  obtain ⟨s, hs⟩ := exists_rank hy
  have hlt : x < y ↔ r < s := by simp [Scalar.lt_iff, hr, hs]
  rw [hlt, exact_eq_valueOf hx, exact_eq_valueOf hy]
  rcases lt_trichotomy r s with h | rfl | h
  · exact iff_of_true h (valueOf_lt_of_lt (isFit_unpack hx) (isFit_unpack hy) hr hs h)
  · rw [valueOf_eq_of_eq (isFit_unpack hx) (isFit_unpack hy) hr hs]
    simp
  · refine iff_of_false h.not_gt (not_lt.mpr ?_)
    exact (valueOf_lt_of_lt (isFit_unpack hy) (isFit_unpack hx) hs hr h).le

/-- Finite floats are compared by their exact values. -/
theorem le_iff_exact (hx : x.isFinite = true) (hy : y.isFinite = true) :
    x ≤ y ↔ exact x ≤ exact y := by
  obtain ⟨r, hr⟩ := exists_rank hx
  obtain ⟨s, hs⟩ := exists_rank hy
  have hle : x ≤ y ↔ r ≤ s := by simp [Scalar.le_iff, hr, hs]
  have hlt : y < x ↔ s < r := by simp [Scalar.lt_iff, hr, hs]
  rw [hle, ← not_lt, ← hlt, lt_iff_exact hy hx, not_lt]

end Order

end Binary64

end ArtCanvas
