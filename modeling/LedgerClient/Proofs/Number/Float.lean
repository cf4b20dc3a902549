import LedgerClient.Proofs.Number.Comparison
import Mathlib

/-!
# Floats and the numbers they denote

A finite float that is not negative denotes its mantissa times a power of two, and as a decimal it denotes
the same number. A product of two such floats is one of them again or infinity.
-/

namespace LedgerClient.Binary

open Float.Model.UnpackedFloat

/-! ## Fields -/

abbrev format : Float.Model.Format := Float.Model.Format.binary64

theorem toNat_unpackExponent (b : BitVec 64) :
    (@unpackExponent format b).toNat = b.toNat / 2 ^ 52 % 2048 := by
  rw [unpackExponent_def, BitVec.extractLsb'_toNat, Nat.shiftRight_eq_div_pow]
  rfl

theorem toNat_unpackMantissa (b : BitVec 64) :
    (@unpackMantissa format b).toNat = b.toNat % 2 ^ 52 := by
  rw [unpackMantissa_def, BitVec.extractLsb'_toNat]
  rfl

theorem exponentField_eq (x : Float) :
    exponentField x = (@unpackExponent format x.toBits.toBitVec).toNat :=
  (toNat_unpackExponent _).symm

theorem fractionField_eq (x : Float) :
    fractionField x = (@unpackMantissa format x.toBits.toBitVec).toNat :=
  (toNat_unpackMantissa _).symm

theorem isNegative_eq (x : Float) :
    isNegative x = decide ((@unpackSign format x.toBits.toBitVec).toNat = 1) := by
  have hbits : x.toBits.toNat < 2 ^ 64 := x.toBits.toNat_lt
  rw [unpackSign_def, BitVec.extractLsb'_toNat, Nat.shiftRight_eq_div_pow]
  show decide (2 ^ 63 ≤ x.toBits.toNat) = decide (x.toBits.toNat / 2 ^ 63 % 2 ^ 1 = 1)
  rw [decide_eq_decide]
  omega

section

variable {x : Float} {s : Sign} {e : BitVec 11} {m : BitVec 52}

theorem exponentField_of_bits (h : x.toBits.toBitVec = packComponents format s e m) :
    exponentField x = e.toNat := by
  rw [exponentField_eq, h, unpackExponent_packComponents]

theorem fractionField_of_bits (h : x.toBits.toBitVec = packComponents format s e m) :
    fractionField x = m.toNat := by
  rw [fractionField_eq, h, unpackMantissa_packComponents]

theorem isNegative_of_bits (h : x.toBits.toBitVec = packComponents format .positive e m) :
    isNegative x = false := by
  rw [isNegative_eq, h, unpackSign_packComponents]
  rfl

end

/-! ## Numbers that are not negative -/

/-- The float denotes a number that is not negative. -/
structure Denotes (x : Float) (q : ℚ) : Prop where
  finite : isFinite x = true
  unsigned : (exact x).mantissa ≠ 0 → isNegative x = false
  value : (exact x).mantissa * (2 : ℚ) ^ (exact x).exponent = q

theorem exact_negative (x : Float) : (exact x).negative = isNegative x := by
  unfold exact
  split <;> rfl

theorem Denotes.nonneg {x : Float} {q : ℚ} (h : Denotes x q) : 0 ≤ q := by
  rw [← h.value]
  positivity

/-- A sign stands before zero only. -/
theorem Denotes.mantissa_eq_zero {x : Float} {q : ℚ} (h : Denotes x q) (hnegative : isNegative x = true) :
    (exact x).mantissa = 0 := by
  by_contra hne
  rw [h.unsigned hne] at hnegative
  cases hnegative

theorem not_special_of_isFinite {x : Float} (h : isFinite x = true) :
    isNaN x = false ∧ isInfinite x = false := by
  have hfield : (exponentField x == 2047) = false := by
    rw [isFinite, bne, Bool.not_eq_true'] at h
    exact h
  rw [isNaN, isInfinite, hfield]
  exact ⟨rfl, rfl⟩

theorem two_mul_five (a : ℤ) : (2 : ℚ) ^ a * 5 ^ a = 10 ^ a := by
  rw [← mul_zpow]
  norm_num

/-- Powers of five make up for the power of ten. -/
theorem scaled_mantissa (m : ℕ) (e : ℤ) :
    ((m * 2 ^ e.toNat * 5 ^ (-e).toNat : ℕ) : ℚ) * 10 ^ (min 0 e) = m * 2 ^ e := by
  rcases le_total 0 e with hpos | hneg
  · obtain ⟨k, rfl⟩ := Int.eq_ofNat_of_zero_le hpos
    have hnone : (-(k : ℤ)).toNat = 0 := by omega
    rw [hnone, Int.toNat_natCast, min_eq_left hpos, zpow_natCast]
    push_cast
    ring
  · obtain ⟨k, hk⟩ := Int.eq_ofNat_of_zero_le (Int.neg_nonneg.mpr hneg)
    obtain rfl : e = -(k : ℤ) := by omega
    have hnone : (-(k : ℤ)).toNat = 0 := by omega
    rw [hnone, neg_neg, Int.toNat_natCast, min_eq_right hneg, ← two_mul_five, zpow_neg, zpow_neg,
      zpow_natCast, zpow_natCast]
    push_cast
    field_simp

theorem ofFloat_of_isFinite {x : Float} (h : isFinite x = true) :
    Decimal.ofFloat x = .finite (isNegative x)
      ((exact x).mantissa * 2 ^ (exact x).exponent.toNat * 5 ^ (-(exact x).exponent).toNat)
      (min 0 (exact x).exponent) := by
  obtain ⟨hnan, hinf⟩ := not_special_of_isFinite h
  rw [Decimal.ofFloat, hnan, hinf, ← exact_negative]
  rfl

theorem isFinite_of_ofFloat {x : Float} (h : (Decimal.ofFloat x).isFinite = true) :
    isFinite x = true := by
  unfold Decimal.ofFloat at h
  split at h
  · cases h
  · next hnan =>
    split at h
    · cases h
    · next hinf =>
      rw [isNaN, Bool.and_eq_true, not_and, bne_iff_ne, not_not] at hnan
      rw [isInfinite, Bool.and_eq_true, not_and, beq_iff_eq (a := fractionField x)] at hinf
      rw [isFinite, bne, Bool.not_eq_true', Bool.eq_false_iff]
      exact fun hfield => hinf hfield (hnan hfield)

/-- A float and its decimal denote the same number. -/
theorem denotes_ofFloat_iff {x : Float} {q : ℚ} : (Decimal.ofFloat x).Denotes q ↔ Denotes x q := by
  constructor
  · intro h
    have hfinite := isFinite_of_ofFloat h.finite
    obtain ⟨negative, c, e, hform, hq, hunsigned⟩ := h.eq_finite
    rw [ofFloat_of_isFinite hfinite] at hform
    obtain ⟨rfl, rfl, rfl⟩ := Decimal.finite.inj hform
    rw [scaled_mantissa] at hq
    exact ⟨hfinite, fun hne => hunsigned (by positivity), hq.symm⟩
  · intro h
    have hvalue := scaled_mantissa (exact x).mantissa (exact x).exponent
    rw [h.value] at hvalue
    refine ⟨?_, ?_, h.nonneg⟩
    · rw [ofFloat_of_isFinite h.finite]
      rfl
    · rw [ofFloat_of_isFinite h.finite, Decimal.value_finite]
      split
      · next hnegative =>
        rw [← h.value, h.mantissa_eq_zero hnegative]
        simp
      · exact hvalue

/-! ## Products -/

theorem sign_of_isNegative {x : Float} (h : isNegative x = false) :
    Sign.ofBitVec (@unpackSign format x.toBits.toBitVec) = .positive := by
  rw [isNegative_eq, decide_eq_false_iff_not] at h
  have hlt : (@unpackSign format x.toBits.toBitVec).toNat < 2 ^ 1 := BitVec.isLt _
  have hzero : @unpackSign format x.toBits.toBitVec = 0#1 := by
    apply BitVec.eq_of_toNat_eq
    show _ = 0
    omega
  rw [Sign.ofBitVec, if_pos hzero]

/-- A zero, or a positive number. -/
inductive Unsigned : Float.Model.UnpackedFloat → Prop where
  | zero (s : Sign) : Unsigned (.zero s)
  | positive (m : ℕ) (e : ℤ) (hm : 0 < m) : Unsigned (.finite .positive m e hm)

theorem Denotes.unsigned_unpack {x : Float} {q : ℚ} (h : Denotes x q) : Unsigned x.toModel.unpack := by
  have hexponent : @unpackExponent format x.toBits.toBitVec ≠ -1#_ := by
    intro hall
    have hfinite := h.finite
    rw [isFinite, exponentField_eq, hall] at hfinite
    cases hfinite
  show Unsigned (unpack format x.toBits.toBitVec)
  unfold Float.Model.UnpackedFloat.unpack
  simp only [if_neg hexponent]
  split
  · next hsubnormal =>
    split
    · exact .zero _
    · next hmantissa =>
      have hfield : exponentField x = 0 := by
        rw [exponentField_eq, hsubnormal]
        rfl
      have hfraction : fractionField x ≠ 0 := by
        rw [fractionField_eq]
        exact fun hzero => hmantissa (BitVec.eq_of_toNat_eq hzero)
      have hpositive := h.unsigned (by rw [exact, if_pos hfield]; exact hfraction)
      rw [sign_of_isNegative hpositive]
      exact .positive _ _ _
  · next hnormal =>
    have hfield : exponentField x ≠ 0 := by
      rw [exponentField_eq]
      exact fun hzero => hnormal (BitVec.eq_of_toNat_eq hzero)
    have hpositive := h.unsigned (by rw [exact, if_neg hfield]; positivity)
    rw [sign_of_isNegative hpositive]
    exact .positive _ _ _

theorem Unsigned.mul {u v : Float.Model.UnpackedFloat} (hu : Unsigned u) (hv : Unsigned v) :
    Unsigned (Float.Model.UnpackedFloat.mul format u v) := by
  cases hu with
  | zero s =>
    cases hv with
    | zero t => exact .zero _
    | positive n f hn => exact .zero _
  | positive m e hm =>
    cases hv with
    | zero t => exact .zero _
    | positive n f hn =>
      show Unsigned (roundWithAccuracy format _ _ _ _)
      unfold roundWithAccuracy
      simp only
      split
      · exact .zero _
      · exact .positive _ _ _

/-- Infinity. -/
def IsInfinity (x : Float) : Prop := isInfinite x = true ∧ isNegative x = false

theorem isFinite_of_isInfinity {x : Float} (h : IsInfinity x) : isFinite x = false := by
  have hinf := h.1
  rw [isInfinite, Bool.and_eq_true] at hinf
  rw [isFinite, bne, hinf.1]
  rfl

theorem denotes_of_bits {x : Float} {s : Sign} {e : BitVec 11} {m : BitVec 52}
    (h : x.toBits.toBitVec = packComponents format s e m) (he : e.toNat ≠ 2047)
    (hs : s = .positive ∨ e.toNat = 0 ∧ m.toNat = 0) : ∃ q, Denotes x q := by
  refine ⟨_, ?_, ?_, rfl⟩
  · rw [isFinite, exponentField_of_bits h]
    exact bne_iff_ne.mpr he
  · intro hne
    rcases hs with rfl | ⟨hzero, hnone⟩
    · exact isNegative_of_bits h
    · rw [exact, if_pos ((exponentField_of_bits h).trans hzero)] at hne
      exact absurd ((fractionField_of_bits h).trans hnone) hne

theorem isInfinity_of_bits {x : Float}
    (h : x.toBits.toBitVec = packComponents format .positive (-1#11) 0#52) : IsInfinity x := by
  refine ⟨?_, isNegative_of_bits h⟩
  rw [isInfinite, exponentField_of_bits h, fractionField_of_bits h]
  rfl

/-- Packing keeps the sign, and makes no float that is no number. -/
theorem denotes_or_isInfinity_of_pack {x : Float} {u : Float.Model.UnpackedFloat}
    (h : x.toModel = Float.Model.pack u) (hu : Unsigned u) : (∃ q, Denotes x q) ∨ IsInfinity x := by
  have hbits : x.toBits.toBitVec = pack format u := by
    show x.toModel.toBits.toBitVec = _
    rw [h]
    rfl
  cases hu with
  | zero s => exact .inl (denotes_of_bits hbits (by decide) (.inr ⟨rfl, rfl⟩))
  | positive m e hm =>
    unfold Float.Model.UnpackedFloat.pack at hbits
    simp only at hbits
    split at hbits
    · exact .inr (isInfinity_of_bits hbits)
    · next hsmall =>
      split at hbits
      · refine .inl (denotes_of_bits hbits ?_ (.inl rfl))
        have hbound : (e + format.exponentBias + format.mantissaBitsWithoutImplicit).toNat + 1 < 2 ^ 11 :=
          Nat.lt_of_not_le hsmall
        rw [BitVec.toNat_ofNat, Nat.mod_eq_of_lt (by omega)]
        omega
      · exact .inl (denotes_of_bits hbits (by decide) (.inl rfl))

/-- A product is a number that is not negative, or it is too large for the format. -/
theorem Denotes.mul {x y : Float} {p q : ℚ} (hx : Denotes x p) (hy : Denotes y q) :
    (∃ r, Denotes (x * y) r) ∨ IsInfinity (x * y) :=
  denotes_or_isInfinity_of_pack rfl (hx.unsigned_unpack.mul hy.unsigned_unpack)

theorem ofFloat_of_isInfinity {x : Float} (h : IsInfinity x) :
    Decimal.ofFloat x = .infinite false := by
  obtain ⟨hinf, hpositive⟩ := h
  have hnan : isNaN x = false := by
    rw [isInfinite, Bool.and_eq_true, beq_iff_eq (a := fractionField x)] at hinf
    rw [isNaN, Bool.and_eq_false_iff]
    exact .inr (bne_eq_false_iff_eq.mpr hinf.2)
  rw [Decimal.ofFloat, hnan, hinf, hpositive]
  rfl

end LedgerClient.Binary
