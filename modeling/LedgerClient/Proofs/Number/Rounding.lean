import LedgerClient.Number.Decimal.Arithmetic
import Mathlib.Algebra.Group.Int.Even
import Mathlib.Algebra.Order.Field.Power
import Mathlib.Data.Rat.Cast.Order
import Mathlib.Tactic.FieldSimp
import Mathlib.Tactic.Linarith
import Mathlib.Tactic.Positivity
import Mathlib.Tactic.Ring

/-!
# Decimal rounding

A finite decimal denotes a rational, and fitting it to a format rounds this rational once: to the nearest
multiple of the power of ten that is the last place, the half-way case going to the even multiple. The
last place is the one that the precision leaves, or that of the least subnormal number.
-/

namespace LedgerClient

/-! ## The nearest integer -/

/-- `n` is the integer nearest to `x`, the even one of two that are equally near. -/
def IsNearest (x : ℚ) (n : ℤ) : Prop := |x - n| < 1 / 2 ∨ (|x - n| = 1 / 2 ∧ Even n)

namespace IsNearest

variable {x : ℚ} {m n : ℤ}

theorem self (n : ℤ) : IsNearest n n := by
  left
  rw [sub_self, abs_zero]
  norm_num

theorem neg (h : IsNearest x n) : IsNearest (-x) (-n : ℤ) := by
  have habs : |-x - ((-n : ℤ) : ℚ)| = |x - n| := by
    rw [Int.cast_neg, ← abs_neg]
    congr 1
    ring
  unfold IsNearest
  rw [habs, even_neg]
  exact h

theorem abs_sub_le (h : IsNearest x n) : |x - n| ≤ 1 / 2 := by
  rcases h with h | ⟨h, -⟩
  · exact h.le
  · exact h.le

/-- Rounding does not pass an integer. -/
theorem le_of_le (h : IsNearest x n) (hm : (m : ℚ) ≤ x) : m ≤ n := by
  by_contra hlt
  have hle : (n : ℚ) + 1 ≤ m := by exact_mod_cast not_le.mp hlt
  have hnear := (abs_le.mp h.abs_sub_le).2
  linarith

theorem ge_of_ge (h : IsNearest x n) (hm : x ≤ m) : n ≤ m := by
  by_contra hlt
  have hle : (m : ℚ) + 1 ≤ n := by exact_mod_cast not_le.mp hlt
  have hnear := (abs_le.mp h.abs_sub_le).1
  linarith

theorem le_abs (h : IsNearest x n) (hm : (m : ℚ) ≤ |x|) : m ≤ |n| := by
  rcases abs_cases x with ⟨habs, -⟩ | ⟨habs, -⟩
  · rw [habs] at hm
    exact (h.le_of_le hm).trans (le_abs_self n)
  · rw [habs] at hm
    exact (h.neg.le_of_le hm).trans (neg_le_abs n)

theorem unique (hm : IsNearest x m) (hn : IsNearest x n) : m = n := by
  by_contra hne
  -- Two different integers are both half a unit away, on either side, and cannot both be even.
  have hstep : ∀ {m n : ℤ}, m < n → |x - m| ≤ 1 / 2 → |x - n| ≤ 1 / 2 →
      IsNearest x m → IsNearest x n → False := by
    intro m n hlt hm hn hnearM hnearN
    have hle : (m : ℚ) + 1 ≤ n := by exact_mod_cast hlt
    have hupper := (abs_le.mp hm).2
    have hlower := (abs_le.mp hn).1
    have hhalfM : |x - m| = 1 / 2 := le_antisymm hm (by rw [abs_of_nonneg] <;> linarith)
    have hhalfN : |x - n| = 1 / 2 := le_antisymm hn (by rw [abs_of_nonpos] <;> linarith)
    have hevenM : Even m := (hnearM.resolve_left (by rw [hhalfM]; exact lt_irrefl _)).2
    have hevenN : Even n := (hnearN.resolve_left (by rw [hhalfN]; exact lt_irrefl _)).2
    have hnext : n = m + 1 := by
      have hupperQ : (n : ℚ) ≤ m + 1 := by linarith
      have hupperZ : n ≤ m + 1 := by exact_mod_cast hupperQ
      omega
    rw [Int.even_iff] at hevenM hevenN
    omega
  rcases lt_or_gt_of_ne hne with hlt | hlt
  · exact hstep hlt hm.abs_sub_le hn.abs_sub_le hm hn
  · exact hstep hlt hn.abs_sub_le hm.abs_sub_le hn hm

end IsNearest

/-- The rounded quotient is the nearest integer. -/
theorem Binary.isNearest_roundDiv (c : ℕ) {d : ℕ} (hd : 0 < d) :
    IsNearest ((c : ℚ) / d) (roundDiv c d : ℤ) := by
  have hdq : (0 : ℚ) < d := by exact_mod_cast hd
  have hrest : c % d < d := Nat.mod_lt c hd
  have hquotient : (c : ℚ) / d = (c / d : ℕ) + ((c % d : ℕ) : ℚ) / d := by
    have hsplit : ((c / d : ℕ) : ℚ) * d + (c % d : ℕ) = c := by exact_mod_cast Nat.div_add_mod' c d
    rw [← hsplit, add_div, mul_div_assoc, div_self hdq.ne', mul_one]
  rw [hquotient]
  unfold roundDiv
  simp only
  generalize c / d = quotient
  generalize c % d = rest at hrest
  have hnonneg : (0 : ℚ) ≤ (rest : ℚ) / d := by positivity
  have hlt : (rest : ℚ) / d < 1 := by
    rw [div_lt_one hdq]
    exact_mod_cast hrest
  split
  · next hlow =>
    have hhalf : (rest : ℚ) / d < 1 / 2 := by
      rw [div_lt_div_iff₀ hdq two_pos]
      have hcast : (2 : ℚ) * rest < d := by exact_mod_cast hlow
      linarith
    left
    rw [Int.cast_natCast, add_sub_cancel_left, abs_of_nonneg hnonneg]
    exact hhalf
  · next hlow =>
    split
    · next hhigh =>
      have hhalf : 1 / 2 < (rest : ℚ) / d := by
        rw [div_lt_div_iff₀ two_pos hdq]
        have hcast : (d : ℚ) < 2 * rest := by exact_mod_cast hhigh
        linarith
      left
      rw [abs_lt]
      push_cast
      constructor
      · linarith
      · linarith
    · next hhigh =>
      have hhalf : (rest : ℚ) / d = 1 / 2 := by
        rw [div_eq_div_iff hdq.ne' two_ne_zero]
        have hcast : (2 : ℚ) * rest = d := by exact_mod_cast (by omega : 2 * rest = d)
        linarith
      rw [hhalf]
      right
      split
      · next heven =>
        refine ⟨?_, ?_⟩
        · rw [Int.cast_natCast, add_sub_cancel_left, abs_of_pos one_half_pos]
        · rw [Int.even_iff]
          omega
      · next hodd =>
        refine ⟨?_, ?_⟩
        · push_cast
          rw [abs_of_neg (by linarith)]
          ring
        · rw [Int.even_iff]
          omega

namespace Decimal

/-! ## Digits -/

theorem lt_pow_digitCount (c : ℕ) : c < 10 ^ digitCount c := by
  have hpos : 0 < digitCount c := Nat.length_toDigits_pos
  exact (Nat.length_toDigits_le_iff (by decide) hpos).mp le_rfl

theorem pow_le_of_digitCount {c : ℕ} (h : c ≠ 0) : 10 ^ (digitCount c - 1) ≤ c := by
  by_contra hlt
  have hpos : 0 < digitCount c := Nat.length_toDigits_pos
  rcases Nat.eq_zero_or_pos (digitCount c - 1) with hone | hmany
  · rw [hone] at hlt
    omega
  · have hlen := (Nat.length_toDigits_le_iff (by decide) hmany).mpr (Nat.lt_of_not_le hlt)
    have hle : digitCount c ≤ digitCount c - 1 := hlen
    omega

theorem digitCount_le_iff {c k : ℕ} (hk : 0 < k) : digitCount c ≤ k ↔ c < 10 ^ k :=
  Nat.length_toDigits_le_iff (by decide) hk

/-- Dropped digits are rounded to the nearest integer. -/
theorem isNearest_dropDigits (c k : ℕ) : IsNearest ((c : ℚ) / 10 ^ k) (dropDigits c k : ℤ) := by
  unfold dropDigits
  split
  · next hshort =>
    have hlt : c * 2 < 10 ^ k := by
      calc c * 2 < 10 ^ digitCount c * 10 := by
            have hc := lt_pow_digitCount c
            omega
        _ = 10 ^ (digitCount c + 1) := (pow_succ _ _).symm
        _ ≤ 10 ^ k := Nat.pow_le_pow_right (by decide) hshort
    left
    rw [Nat.cast_zero, Int.cast_zero, sub_zero, abs_of_nonneg (by positivity),
      div_lt_div_iff₀ (by positivity) two_pos, one_mul]
    exact_mod_cast hlt
  · have hnear := Binary.isNearest_roundDiv c (d := 10 ^ k) (by positivity)
    push_cast at hnear
    exact hnear

/-! ## Powers of ten -/

theorem ten_pow_add (a b : ℤ) : (10 : ℚ) ^ (a + b) = 10 ^ a * 10 ^ b := zpow_add₀ (by norm_num) a b

theorem ten_pow_pos (a : ℤ) : (0 : ℚ) < 10 ^ a := zpow_pos (by norm_num) a

theorem ten_pow_le {a b : ℤ} : (10 : ℚ) ^ a ≤ 10 ^ b ↔ a ≤ b := zpow_le_zpow_iff_right₀ (by norm_num)

theorem ten_pow_lt {a b : ℤ} : (10 : ℚ) ^ a < 10 ^ b ↔ a < b := zpow_lt_zpow_iff_right₀ (by norm_num)

theorem pow_adjusted_le {c : ℕ} (h : c ≠ 0) (e : ℤ) : (10 : ℚ) ^ adjusted c e ≤ c * 10 ^ e := by
  have hpos : 0 < digitCount c := Nat.length_toDigits_pos
  have hexponent : adjusted c e = ((digitCount c - 1 : ℕ) : ℤ) + e := by
    unfold adjusted
    omega
  rw [hexponent, ten_pow_add, zpow_natCast]
  refine mul_le_mul_of_nonneg_right ?_ (ten_pow_pos e).le
  exact_mod_cast pow_le_of_digitCount h

theorem lt_pow_adjusted (c : ℕ) (e : ℤ) : (c : ℚ) * 10 ^ e < 10 ^ (adjusted c e + 1) := by
  have hexponent : adjusted c e + 1 = (digitCount c : ℤ) + e := by
    unfold adjusted
    omega
  rw [hexponent, ten_pow_add, zpow_natCast]
  refine mul_lt_mul_of_pos_right ?_ (ten_pow_pos e)
  exact_mod_cast lt_pow_digitCount c

theorem shifted_div (c : ℚ) (e : ℤ) (k : ℕ) : c * 10 ^ e / 10 ^ (e + k) = c / 10 ^ k := by
  rw [ten_pow_add, zpow_natCast, mul_comm c, mul_div_mul_left _ _ (ten_pow_pos e).ne']

/-! ## Rounding to a format -/

/-- The number that a decimal denotes, when it is finite. -/
def value : Decimal → ℚ
  | .finite negative c e => (signed negative c : ℤ) * 10 ^ e
  | _ => 0

theorem value_finite (negative : Bool) (c : ℕ) (e : ℤ) :
    value (.finite negative c e) = if negative then -((c : ℚ) * 10 ^ e) else (c : ℚ) * 10 ^ e := by
  cases negative with
  | true => rw [value, signed, if_pos rfl, if_pos rfl, Int.cast_neg, Int.cast_natCast, neg_mul]
  | false => rw [value, signed, if_neg Bool.false_ne_true, if_neg Bool.false_ne_true, Int.cast_natCast]

theorem abs_value_finite (negative : Bool) (c : ℕ) (e : ℤ) :
    |value (.finite negative c e)| = (c : ℚ) * 10 ^ e := by
  have hnonneg : (0 : ℚ) ≤ c * 10 ^ e := mul_nonneg (Nat.cast_nonneg c) (ten_pow_pos e).le
  rw [value_finite]
  split
  · rw [abs_neg, abs_of_nonneg hnonneg]
  · exact abs_of_nonneg hnonneg

namespace Format

/-- The last place that a format keeps of a number. -/
structure IsLastPlace (f : Format) (x : ℚ) (place : ℤ) : Prop where
  tiny_le : f.tiny ≤ place
  lt : |x| < 10 ^ (place + f.precision)
  le : place = f.tiny ∨ 10 ^ (place + f.precision - 1) ≤ |x|

/-- `y` is the multiple of the last place that is nearest to `x`. -/
def Rounds (f : Format) (x y : ℚ) : Prop :=
  ∃ place n : ℤ, f.IsLastPlace x place ∧ IsNearest (x / 10 ^ place) n ∧ y = n * 10 ^ place

/-- A format keeps at least one digit, and some numbers are neither too small nor too large for it. -/
structure IsProper (f : Format) : Prop where
  precision_pos : 0 < f.precision
  powers : f.minPower ≤ f.maxPower

theorem isProper_units : Format.units.IsProper := ⟨by decide, by decide⟩

/-- The coefficient and the exponent to which a nonzero number is rounded. -/
def rounded (f : Format) (c : ℕ) (e : ℤ) : ℕ × ℤ :=
  let start : ℕ × ℤ :=
    if adjusted c e < f.minPower ∧ e < f.tiny then (dropDigits c (f.tiny - e).toNat, f.tiny)
    else (c, e)
  roundToPrecision f start.1 start.2

theorem fit_of_ne_zero (f : Format) (negative : Bool) {c : ℕ} (h : c ≠ 0) (e : ℤ) :
    f.fit negative c e =
      if f.maxPower < adjusted c e then .error .overflow
      else if f.maxPower < adjusted (f.rounded c e).1 (f.rounded c e).2 then .error .overflow
      else .ok (.finite negative (f.rounded c e).1 (f.rounded c e).2) := by
  rw [fit, if_neg h]
  rfl

/-- What the rounding of a coefficient at an exponent comes to: `n` units of the last place. -/
structure RoundsTo (f : Format) (c : ℕ) (e : ℤ) (r : ℕ × ℤ) (place : ℤ) (n : ℕ) : Prop where
  isLastPlace : f.IsLastPlace ((c : ℚ) * 10 ^ e) place
  isNearest : IsNearest ((c : ℚ) * 10 ^ e / 10 ^ place) n
  value_eq : (r.1 : ℚ) * 10 ^ r.2 = n * 10 ^ place
  tiny_of_zero : r.1 = 0 → r.2 = f.tiny

variable {f : Format} {c : ℕ} {e : ℤ}

theorem isLastPlace_of_adjusted (h : c ≠ 0) {place : ℤ} (htiny : f.tiny ≤ place)
    (hlow : adjusted c e < place + f.precision)
    (hhigh : place = f.tiny ∨ place + f.precision - 1 ≤ adjusted c e) :
    f.IsLastPlace ((c : ℚ) * 10 ^ e) place := by
  have habs : |(c : ℚ) * 10 ^ e| = c * 10 ^ e :=
    abs_of_nonneg (mul_nonneg (Nat.cast_nonneg c) (ten_pow_pos e).le)
  refine ⟨htiny, ?_, hhigh.imp_right fun hle => ?_⟩
  · rw [habs]
    exact (lt_pow_adjusted c e).trans_le (ten_pow_le.mpr hlow)
  · rw [habs]
    exact (ten_pow_le.mpr hle).trans (pow_adjusted_le h e)

theorem roundToPrecision_of_le (h : digitCount c ≤ f.precision) :
    roundToPrecision f c e = (c, e) := by
  have hexcess : digitCount c - f.precision = 0 := Nat.sub_eq_zero_of_le h
  rw [roundToPrecision]
  exact if_pos hexcess

/-- Digits within the precision are kept at their exponent when both bounds of the exponent allow it. -/
theorem fit_of_kept (negative : Bool) (hdigits : digitCount c ≤ f.precision) (htiny : f.tiny ≤ e)
    (hmax : adjusted c e ≤ f.maxPower) : f.fit negative c e = .ok (.finite negative c e) := by
  by_cases hc : c = 0
  · have hcount : 0 < digitCount c := Nat.length_toDigits_pos
    have he : e ≤ f.maxPower := by
      unfold adjusted at hmax
      omega
    rw [fit, if_pos hc, hc, max_eq_right htiny, min_eq_right he]
  · have hrounded : f.rounded c e = (c, e) := by
      rw [rounded, if_neg fun h => absurd h.2 (not_lt.mpr htiny)]
      exact roundToPrecision_of_le hdigits
    rw [fit_of_ne_zero f negative hc, hrounded, if_neg (not_lt.mpr hmax), if_neg (not_lt.mpr hmax)]

/-- Nothing is dropped when the digits fit. -/
theorem roundsTo_self (h : c ≠ 0) {place : ℤ} (hplace : f.IsLastPlace ((c : ℚ) * 10 ^ e) place)
    (hle : place ≤ e) : ∃ n, f.RoundsTo c e (c, e) place n := by
  obtain ⟨k, hk⟩ := Int.le.dest hle
  have hvalue : (c : ℚ) * 10 ^ e = ((c * 10 ^ k : ℕ) : ℚ) * 10 ^ place := by
    push_cast
    rw [← hk, ten_pow_add, zpow_natCast]
    ring
  refine ⟨c * 10 ^ k, hplace, ?_, hvalue, fun hzero => absurd hzero h⟩
  rw [hvalue, mul_div_cancel_right₀ _ (ten_pow_pos place).ne']
  exact IsNearest.self _

theorem isNearest_dropped (c k : ℕ) (e : ℤ) :
    IsNearest ((c : ℚ) * 10 ^ e / 10 ^ (e + k)) (dropDigits c k : ℤ) := by
  rw [shifted_div]
  exact isNearest_dropDigits c k

theorem dropDigits_le {k m : ℕ} (h : c < 10 ^ (m + k)) : dropDigits c k ≤ 10 ^ m := by
  have hquotient : (c : ℚ) / 10 ^ k ≤ ((10 ^ m : ℕ) : ℤ) := by
    rw [div_le_iff₀ (by positivity)]
    push_cast
    rw [← pow_add]
    exact_mod_cast h.le
  exact_mod_cast (isNearest_dropDigits c k).ge_of_ge hquotient

theorem le_dropDigits {k m : ℕ} (h : 10 ^ (m + k) ≤ c) : 10 ^ m ≤ dropDigits c k := by
  have hquotient : (((10 ^ m : ℕ) : ℤ) : ℚ) ≤ (c : ℚ) / 10 ^ k := by
    rw [le_div_iff₀ (by positivity)]
    push_cast
    rw [← pow_add]
    exact_mod_cast h
  exact_mod_cast (isNearest_dropDigits c k).le_of_le hquotient

/-- Below the least normal number the last place is that of the least subnormal one. -/
theorem roundsTo_of_subnormal (hf : f.IsProper) (h : c ≠ 0) (hlow : adjusted c e < f.minPower)
    (he : e < f.tiny) : ∃ n, f.RoundsTo c e (f.rounded c e) f.tiny n := by
  obtain ⟨k, hk⟩ := Int.le.dest he.le
  have hprecision := hf.precision_pos
  have hcount : (f.tiny - e).toNat = k := by omega
  have hdigits : digitCount c ≤ f.precision - 1 + k := by
    have htiny : f.tiny = f.minPower - (f.precision - 1) := rfl
    unfold adjusted at hlow
    omega
  have hkept : dropDigits c k ≤ 10 ^ (f.precision - 1) :=
    dropDigits_le ((lt_pow_digitCount c).trans_le (Nat.pow_le_pow_right (by decide) hdigits))
  have hfits : digitCount (dropDigits c k) ≤ f.precision := by
    rw [digitCount_le_iff hprecision]
    exact hkept.trans_lt (Nat.pow_lt_pow_right (by decide) (by omega))
  have hrounded : f.rounded c e = (dropDigits c k, f.tiny) := by
    rw [rounded, if_pos ⟨hlow, he⟩, hcount]
    exact roundToPrecision_of_le hfits
  refine ⟨dropDigits c k, isLastPlace_of_adjusted h le_rfl ?_ (.inl rfl), ?_, ?_, fun _ => ?_⟩
  · have htiny : f.tiny = f.minPower - (f.precision - 1) := rfl
    omega
  · have hnear := isNearest_dropped c k e
    rwa [hk] at hnear
  · rw [hrounded]
  · rw [hrounded]

/-- Digits beyond the precision are dropped, and a carry through all of them moves the exponent. -/
theorem roundsTo_of_excess (hf : f.IsProper) (h : c ≠ 0) {k : ℕ} (hk : digitCount c = f.precision + k)
    (hpos : 0 < k) (htiny : f.tiny ≤ e + k) :
    ∃ n, f.RoundsTo c e (roundToPrecision f c e) (e + k) n := by
  have hprecision := hf.precision_pos
  have hexcess : digitCount c - f.precision = k := by omega
  have hupper : dropDigits c k ≤ 10 ^ f.precision := by
    refine dropDigits_le ?_
    rw [← hk]
    exact lt_pow_digitCount c
  have hlower : 10 ^ (f.precision - 1) ≤ dropDigits c k := by
    refine le_dropDigits ?_
    have hdigits : f.precision - 1 + k = digitCount c - 1 := by omega
    rw [hdigits]
    exact pow_le_of_digitCount h
  have hplace : f.IsLastPlace ((c : ℚ) * 10 ^ e) (e + k) := by
    refine isLastPlace_of_adjusted h htiny ?_ (.inr ?_)
    · unfold adjusted
      omega
    · unfold adjusted
      omega
  have hvalue : ((roundToPrecision f c e).1 : ℚ) * 10 ^ (roundToPrecision f c e).2 =
      dropDigits c k * 10 ^ (e + k : ℤ) := by
    rw [roundToPrecision]
    simp only [hexcess, if_neg hpos.ne']
    split
    · next hcarry =>
      have hfull : dropDigits c k = 10 ^ f.precision := by
        refine le_antisymm hupper (Nat.le_of_not_lt fun hlt => ?_)
        have hfits := (digitCount_le_iff hprecision).mpr hlt
        omega
      have htens : dropDigits c k / 10 * 10 = dropDigits c k := by
        obtain ⟨m, hm⟩ := Nat.exists_eq_succ_of_ne_zero hprecision.ne'
        rw [hfull, hm, Nat.pow_succ, Nat.mul_div_cancel _ (by decide)]
      have htensQ : ((dropDigits c k / 10 : ℕ) : ℚ) * 10 = dropDigits c k := by exact_mod_cast htens
      rw [ten_pow_add _ 1, zpow_one, ← htensQ]
      ring
    · rfl
  refine ⟨dropDigits c k, hplace, isNearest_dropped c k e, hvalue, fun hzero => ?_⟩
  -- What is kept has a first digit, so nothing else than a number below the format becomes zero.
  have hkept : (0 : ℚ) < dropDigits c k := by
    exact_mod_cast (Nat.pow_pos (by decide)).trans_le hlower
  rw [hzero, Nat.cast_zero, zero_mul] at hvalue
  exact absurd hvalue (mul_pos hkept (ten_pow_pos _)).ne

theorem roundsTo_rounded (hf : f.IsProper) (h : c ≠ 0) :
    ∃ place n, f.RoundsTo c e (f.rounded c e) place n := by
  have hprecision := hf.precision_pos
  have htiny : f.tiny = f.minPower - (f.precision - 1) := rfl
  by_cases hsubnormal : adjusted c e < f.minPower ∧ e < f.tiny
  · exact ⟨f.tiny, roundsTo_of_subnormal hf h hsubnormal.1 hsubnormal.2⟩
  · have hrounded : f.rounded c e = roundToPrecision f c e := by rw [rounded, if_neg hsubnormal]
    rw [hrounded]
    by_cases hfits : digitCount c ≤ f.precision
    · rw [roundToPrecision_of_le hfits]
      refine ⟨max f.tiny (adjusted c e - f.precision + 1), roundsTo_self h ?_ ?_⟩
      · refine isLastPlace_of_adjusted h (le_max_left _ _) ?_ ?_
        · omega
        · omega
      · unfold adjusted at hsubnormal ⊢
        omega
    · refine ⟨e + (digitCount c - f.precision : ℕ), roundsTo_of_excess hf h ?_ ?_ ?_⟩
      · omega
      · omega
      · unfold adjusted at hsubnormal
        omega

/-- The sign has no part in rounding. -/
theorem Rounds.neg {x y : ℚ} (h : f.Rounds x y) : f.Rounds (-x) (-y) := by
  obtain ⟨place, n, ⟨htiny, hlt, hle⟩, hnear, rfl⟩ := h
  refine ⟨place, -n, ⟨htiny, ?_, ?_⟩, ?_, ?_⟩
  · rwa [abs_neg]
  · rwa [abs_neg]
  · rw [neg_div]
    exact hnear.neg
  · rw [Int.cast_neg, neg_mul]

theorem rounds_of_roundsTo {r : ℕ × ℤ} {place : ℤ} {n : ℕ} (h : f.RoundsTo c e r place n)
    (negative : Bool) :
    f.Rounds (value (.finite negative c e)) (value (.finite negative r.1 r.2)) := by
  have hrounds : f.Rounds ((c : ℚ) * 10 ^ e) ((r.1 : ℚ) * 10 ^ r.2) :=
    ⟨place, n, h.isLastPlace, h.isNearest, by rw [h.value_eq, Int.cast_natCast]⟩
  rw [value_finite, value_finite]
  split
  · exact hrounds.neg
  · exact hrounds

theorem rounds_zero (hf : f.IsProper) : f.Rounds 0 0 := by
  have hprecision := hf.precision_pos
  refine ⟨f.tiny, 0, ⟨le_rfl, ?_, .inl rfl⟩, ?_, ?_⟩
  · rw [abs_zero]
    exact ten_pow_pos _
  · rw [zero_div]
    exact IsNearest.self 0
  · rw [Int.cast_zero, zero_mul]

/-- What fitting gives for the number `y` to which a number is rounded. -/
inductive Fits (f : Format) (y : ℚ) : Except Signal Decimal → Prop where
  | overflow (h : 10 ^ (f.maxPower + 1) ≤ |y|) : Fits f y (.error .overflow)
  | finite {negative : Bool} {c : ℕ} {e : ℤ} (hlt : |y| < 10 ^ (f.maxPower + 1))
      (h : value (.finite negative c e) = y) : Fits f y (.ok (.finite negative c e))

theorem lt_adjusted_iff {p : ℤ} (h : c ≠ 0) : p < adjusted c e ↔ 10 ^ (p + 1) ≤ (c : ℚ) * 10 ^ e := by
  constructor
  · intro hlt
    exact (ten_pow_le.mpr hlt).trans (pow_adjusted_le h e)
  · intro hle
    have hpow := ten_pow_lt.mp (hle.trans_lt (lt_pow_adjusted c e))
    omega

/-- A number beyond the greatest power is not rounded back below it. -/
theorem RoundsTo.le_of_adjusted {r : ℕ × ℤ} {place : ℤ} {n : ℕ} (hf : f.IsProper)
    (h : f.RoundsTo c e r place n) (hc : c ≠ 0) (hlarge : f.maxPower < adjusted c e) :
    10 ^ (f.maxPower + 1) ≤ (r.1 : ℚ) * 10 ^ r.2 := by
  have hplace : place ≤ adjusted c e := by
    have hprecision := hf.precision_pos
    rcases h.isLastPlace.le with htiny | hle
    · have hpowers := hf.powers
      have hdef : f.tiny = f.minPower - (f.precision - 1) := rfl
      omega
    · have hvalue : |(c : ℚ) * 10 ^ e| = c * 10 ^ e :=
        abs_of_nonneg (mul_nonneg (Nat.cast_nonneg c) (ten_pow_pos e).le)
      rw [hvalue] at hle
      have hpow := ten_pow_lt.mp (hle.trans_lt (lt_pow_adjusted c e))
      omega
  obtain ⟨k, hk⟩ := Int.le.dest hplace
  have hunits : ((10 ^ k : ℕ) : ℤ) ≤ (n : ℤ) := by
    refine h.isNearest.le_of_le ?_
    rw [le_div_iff₀ (ten_pow_pos place)]
    push_cast
    rw [← zpow_natCast, ← ten_pow_add, add_comm, hk]
    exact pow_adjusted_le hc e
  calc (10 : ℚ) ^ (f.maxPower + 1) ≤ 10 ^ adjusted c e := ten_pow_le.mpr hlarge
    _ = (10 ^ k : ℕ) * 10 ^ place := by
        push_cast
        rw [← zpow_natCast, ← ten_pow_add, add_comm, hk]
    _ ≤ n * 10 ^ place := by
        refine mul_le_mul_of_nonneg_right ?_ (ten_pow_pos place).le
        exact_mod_cast hunits
    _ = (r.1 : ℚ) * 10 ^ r.2 := h.value_eq.symm

/-- The check of the rounded number compares it with the greatest power. -/
theorem RoundsTo.lt_adjusted_iff {r : ℕ × ℤ} {place : ℤ} {n : ℕ} (hf : f.IsProper)
    (h : f.RoundsTo c e r place n) :
    f.maxPower < adjusted r.1 r.2 ↔ 10 ^ (f.maxPower + 1) ≤ (r.1 : ℚ) * 10 ^ r.2 := by
  by_cases hzero : r.1 = 0
  · have htiny := h.tiny_of_zero hzero
    have hprecision := hf.precision_pos
    have hpowers := hf.powers
    have hdef : f.tiny = f.minPower - (f.precision - 1) := rfl
    have hcount : adjusted 0 f.tiny = f.tiny := by
      have hone : digitCount 0 = 1 := rfl
      unfold adjusted
      omega
    rw [hzero, htiny, hcount, Nat.cast_zero, zero_mul]
    exact iff_of_false (by omega) (not_le.mpr (ten_pow_pos _))
  · exact Decimal.Format.lt_adjusted_iff hzero

/-- Fitting rounds once, and overflows exactly when the rounded number is beyond the greatest power. -/
theorem fit_rounds (hf : f.IsProper) (negative : Bool) (c : ℕ) (e : ℤ) :
    ∃ y, f.Rounds (value (.finite negative c e)) y ∧ f.Fits y (f.fit negative c e) := by
  by_cases hc : c = 0
  · subst hc
    have hvalue (e : ℤ) : value (.finite negative 0 e) = 0 := by
      rw [value_finite, Nat.cast_zero, zero_mul, neg_zero, ite_self]
    refine ⟨0, ?_, ?_⟩
    · rw [hvalue]
      exact rounds_zero hf
    · rw [fit, if_pos rfl]
      refine .finite ?_ (hvalue _)
      rw [abs_zero]
      exact ten_pow_pos _
  · obtain ⟨place, n, h⟩ := roundsTo_rounded (e := e) hf hc
    have habs := abs_value_finite negative (f.rounded c e).1 (f.rounded c e).2
    refine ⟨_, rounds_of_roundsTo h negative, ?_⟩
    rw [fit_of_ne_zero f negative hc]
    split
    · next hlarge =>
      refine .overflow ?_
      rw [habs]
      exact h.le_of_adjusted hf hc hlarge
    · split
      · next hlarge =>
        refine .overflow ?_
        rw [habs]
        exact (h.lt_adjusted_iff hf).mp hlarge
      · next hsmall =>
        refine .finite ?_ rfl
        rw [habs]
        exact not_le.mp fun hle => hsmall ((h.lt_adjusted_iff hf).mpr hle)

/-! ## Unrounded numbers -/

theorem IsLastPlace.le_of_multiple {x : ℚ} {place m k : ℤ} (h : f.IsLastPlace x place)
    (hx : x = m * 10 ^ k) (hm : |(m : ℚ)| < 10 ^ f.precision) (hk : f.tiny ≤ k) : place ≤ k := by
  rcases h.le with htiny | hle
  · rw [htiny]
    exact hk
  · have hlt : |x| < 10 ^ (f.precision + k : ℤ) := by
      rw [hx, abs_mul, abs_of_pos (ten_pow_pos k), ten_pow_add, zpow_natCast]
      exact mul_lt_mul_of_pos_right hm (ten_pow_pos k)
    have hpow := ten_pow_lt.mp (hle.trans_lt hlt)
    omega

/-- A number with no more digits than the format keeps is not changed. -/
theorem Rounds.eq_of_multiple {x y : ℚ} {m k : ℤ} (h : f.Rounds x y) (hx : x = m * 10 ^ k)
    (hm : |(m : ℚ)| < 10 ^ f.precision) (hk : f.tiny ≤ k) : y = x := by
  obtain ⟨place, n, hplace, hnear, rfl⟩ := h
  obtain ⟨j, hj⟩ := Int.le.dest (hplace.le_of_multiple hx hm hk)
  have hunits : x = ((m * 10 ^ j : ℤ) : ℚ) * 10 ^ place := by
    push_cast
    rw [hx, ← hj, ten_pow_add, zpow_natCast]
    ring
  rw [hunits, mul_div_cancel_right₀ _ (ten_pow_pos place).ne'] at hnear
  rw [hunits, hnear.unique (IsNearest.self _)]

theorem IsLastPlace.unique {x : ℚ} {p q : ℤ} (hp : f.IsLastPlace x p) (hq : f.IsLastPlace x q) :
    p = q := by
  have hle {p q : ℤ} (hp : f.IsLastPlace x p) (hq : f.IsLastPlace x q) : p ≤ q := by
    rcases hp.le with htiny | hlow
    · rw [htiny]
      exact hq.tiny_le
    · have hpow := ten_pow_lt.mp (hlow.trans_lt hq.lt)
      omega
  exact le_antisymm (hle hp hq) (hle hq hp)

theorem Rounds.unique {x y z : ℚ} (hy : f.Rounds x y) (hz : f.Rounds x z) : y = z := by
  obtain ⟨p, m, hp, hm, rfl⟩ := hy
  obtain ⟨q, n, hq, hn, rfl⟩ := hz
  obtain rfl := hp.unique hq
  rw [hm.unique hn]

/-- The error is at most half a unit of the last place, and the rounded number has as many digits. -/
theorem Rounds.abs_sub_le {x y : ℚ} (hf : f.IsProper) (h : f.Rounds x y) :
    ∃ place : ℤ, |x - y| ≤ 10 ^ place / 2 ∧
      (place = f.tiny ∨ 10 ^ (place + f.precision - 1) ≤ |y|) := by
  obtain ⟨place, n, hplace, hnear, rfl⟩ := h
  have hpos := ten_pow_pos place
  refine ⟨place, ?_, hplace.le.imp_right fun hle => ?_⟩
  · have hsplit : x - n * 10 ^ place = (x / 10 ^ place - n) * 10 ^ place := by
      rw [sub_mul, div_mul_cancel₀ _ hpos.ne']
    rw [hsplit, abs_mul, abs_of_pos hpos]
    calc |x / 10 ^ place - n| * 10 ^ place ≤ 1 / 2 * 10 ^ place :=
          mul_le_mul_of_nonneg_right hnear.abs_sub_le hpos.le
      _ = 10 ^ place / 2 := by ring
  · have hprecision := hf.precision_pos
    have hexponent : place + f.precision - 1 = ((f.precision - 1 : ℕ) : ℤ) + place := by omega
    rw [hexponent, ten_pow_add, zpow_natCast] at hle ⊢
    have hunits : ((10 ^ (f.precision - 1) : ℕ) : ℤ) ≤ |n| := by
      refine hnear.le_abs ?_
      rw [abs_div, abs_of_pos hpos, le_div_iff₀ hpos]
      push_cast
      exact hle
    rw [abs_mul, abs_of_pos hpos, ← Int.cast_abs]
    refine mul_le_mul_of_nonneg_right ?_ hpos.le
    exact_mod_cast hunits

end Format

/-! ## Integers -/

/-- The coefficient with as many places cut off as the exponent says. -/
theorem value_of_negative (negative : Bool) {c : ℕ} {e : ℤ} (he : e < 0) :
    |value (.finite negative c e)| = (c : ℚ) / 10 ^ (-e).toNat := by
  have hexponent : e = -((-e).toNat : ℤ) := by omega
  rw [abs_value_finite, div_eq_mul_inv, ← zpow_natCast, ← zpow_neg, ← hexponent]

theorem dvd_of_value {c k : ℕ} {n : ℤ} (h : (c : ℚ) / 10 ^ k = n) : 10 ^ k ∣ c := by
  rw [div_eq_iff (by positivity)] at h
  have hproduct : (c : ℤ) = n * (10 ^ k : ℕ) := by
    have hcast : ((c : ℤ) : ℚ) = ((n * (10 ^ k : ℕ) : ℤ) : ℚ) := by
      push_cast
      exact h
    exact_mod_cast hcast
  exact Int.natCast_dvd_natCast.mp (Dvd.intro_left n hproduct.symm)

theorem isIntegral_of_value {negative : Bool} {c : ℕ} {e n : ℤ}
    (h : value (.finite negative c e) = n) : isIntegral (.finite negative c e) = true := by
  simp only [isIntegral, Bool.or_eq_true, decide_eq_true_eq, Bool.and_eq_true, beq_iff_eq]
  by_cases hc : c = 0
  · exact .inl (.inl hc)
  · by_cases he : 0 ≤ e
    · exact .inl (.inr he)
    · have hquotient : (c : ℚ) / 10 ^ (-e).toNat = (|n| : ℤ) := by
        rw [← value_of_negative negative (not_le.mp he), h, Int.cast_abs]
      have hdvd := dvd_of_value hquotient
      have hle : 10 ^ (-e).toNat ≤ c := Nat.le_of_dvd (Nat.pos_of_ne_zero hc) hdvd
      have hdigits := (Nat.pow_lt_pow_iff_right (by decide)).mp (hle.trans_lt (lt_pow_digitCount c))
      exact .inr ⟨hdigits.le, Nat.mod_eq_zero_of_dvd hdvd⟩

/-- The integer part of a number that is one, without its sign. -/
theorem magnitude_of_isIntegral {negative : Bool} {c : ℕ} {e : ℤ}
    (h : isIntegral (.finite negative c e) = true) :
    (c : ℚ) * 10 ^ e = ((if 0 ≤ e then c * 10 ^ e.toNat
      else if digitCount c < (-e).toNat then 0 else c / 10 ^ (-e).toNat : ℕ) : ℚ) := by
  by_cases he : 0 ≤ e
  · rw [if_pos he]
    push_cast
    rw [← zpow_natCast, Int.toNat_of_nonneg he]
  · have habs : (c : ℚ) * 10 ^ e = c / 10 ^ (-e).toNat := by
      rw [← value_of_negative false (not_le.mp he), abs_value_finite]
    simp only [isIntegral, Bool.or_eq_true, decide_eq_true_eq, Bool.and_eq_true, beq_iff_eq] at h
    rw [if_neg he, habs]
    rcases h with (hc | he') | ⟨hdigits, hrest⟩
    · rw [hc, Nat.zero_div, ite_self, Nat.cast_zero, zero_div]
    · exact absurd he' he
    · rw [if_neg (not_lt.mpr hdigits), div_eq_iff (by positivity)]
      exact_mod_cast (Nat.div_mul_cancel (Nat.dvd_of_mod_eq_zero hrest)).symm

theorem value_of_isIntegral {negative : Bool} {c : ℕ} {e : ℤ}
    (h : isIntegral (.finite negative c e) = true) :
    value (.finite negative c e) = truncate (.finite negative c e) := by
  rw [value_finite, magnitude_of_isIntegral h, truncate]
  cases negative with
  | true =>
    simp only [if_true]
    rw [Int.cast_neg, Int.cast_natCast]
  | false =>
    simp only [Bool.false_eq_true, if_false]
    rw [Int.cast_natCast]

/-! ## Scaling -/

/-- A finite number is scaled by fitting it at another exponent, when the power is within reach. -/
theorem scale_rounds {f : Format} (hf : f.IsProper) {d : Decimal} (hd : d.isFinite = true) {p : ℤ}
    (hp : reaches f p = true) :
    ∃ y, f.Rounds (d.value * 10 ^ p) y ∧ f.Fits y (d.scale f p) := by
  cases d with
  | finite negative c e =>
    have hvalue : value (.finite negative c e) * 10 ^ p = value (.finite negative c (e + p)) := by
      rw [value, value, ten_pow_add, mul_assoc]
    have hscale : scale f (.finite negative c e) p = f.fit negative c (e + p) := by
      rw [scale, if_pos hp]
    rw [hvalue, hscale]
    exact Format.fit_rounds hf negative c (e + p)
  | infinite => cases hd
  | nan => cases hd

theorem scale_of_unreachable {f : Format} {d : Decimal} (hd : d.isFinite = true) {p : ℤ}
    (hp : reaches f p = false) : d.scale f p = .error .invalidOperation := by
  cases d with
  | finite negative c e =>
    rw [scale, hp]
    rfl
  | infinite => cases hd
  | nan => cases hd

end Decimal

end LedgerClient
