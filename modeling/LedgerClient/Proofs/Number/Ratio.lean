import LedgerClient.Proofs.Number.Float

/-!
# Quotients as floats

A quotient below the limit of the format becomes a float with the nearest number of units in the last
place, and one from the limit on becomes infinity. A natural number of less than 54 binary digits is kept,
and no power of two in the range of normal numbers is passed by rounding.
-/

namespace LedgerClient.Binary

open Float.Model.UnpackedFloat

/-! ## Floats by their fields -/

theorem toNat_toBits_ofFields (negative : Bool) (magnitude : ℕ) (h : magnitude ≤ 2047 * 2 ^ 52) :
    (ofFields negative magnitude).toBits.toNat = (if negative then 2 ^ 63 else 0) + magnitude := by
  generalize hsign : (if negative then 2 ^ 63 else 0) = sign
  have hbound : sign + magnitude < 2 ^ 64 := by
    rw [← hsign]
    split <;> omega
  have hnat : (UInt64.ofNat (sign + magnitude)).toBitVec.toNat = sign + magnitude := by
    show (sign + magnitude) % 2 ^ 64 = _
    exact Nat.mod_eq_of_lt hbound
  have hnumber : @isNaNBits format (UInt64.ofNat (sign + magnitude)).toBitVec = false := by
    refine decide_eq_false ?_
    rintro ⟨hexponent, hmantissa⟩
    have hall := congrArg BitVec.toNat hexponent
    rw [toNat_unpackExponent, hnat] at hall
    have hfraction : (sign + magnitude) % 2 ^ 52 ≠ 0 := by
      rw [← hnat, ← toNat_unpackMantissa]
      exact fun hzero => hmantissa (BitVec.eq_of_toNat_eq hzero)
    change _ = 2047 at hall
    have hcases : sign = 2 ^ 63 ∨ sign = 0 := by
      rw [← hsign]
      split
      · exact .inl rfl
      · exact .inr rfl
    omega
  unfold ofFields
  rw [hsign]
  show (pack format (unpack format (UInt64.ofNat (sign + magnitude)).toBitVec)).toNat = _
  rw [pack_unpack, hnumber]
  exact hnat

theorem isInfinity_infinity : IsInfinity (infinity false) := by
  have hbits := toNat_toBits_ofFields false (2047 * 2 ^ 52) le_rfl
  rw [if_neg Bool.false_ne_true, zero_add] at hbits
  refine ⟨?_, ?_⟩
  · unfold isInfinite exponentField fractionField infinity
    rw [hbits]
    decide
  · unfold isNegative infinity
    rw [hbits]
    decide

theorem denotes_signedZero (negative : Bool) : Denotes (signedZero negative) 0 := by
  have hbits := toNat_toBits_ofFields negative 0 (Nat.zero_le _)
  have hexponent : exponentField (signedZero negative) = 0 := by
    unfold exponentField signedZero
    rw [hbits]
    cases negative <;> decide
  have hfraction : fractionField (signedZero negative) = 0 := by
    unfold fractionField signedZero
    rw [hbits]
    cases negative <;> decide
  have hmantissa : (exact (signedZero negative)).mantissa = 0 := by
    rw [exact, if_pos hexponent]
    exact hfraction
  refine ⟨?_, fun hne => absurd hmantissa hne, ?_⟩
  · rw [isFinite, hexponent]
    decide
  · rw [hmantissa, Nat.cast_zero, zero_mul]

/-- Units of the last place, where a carry moves the exponent. -/
theorem denotes_units {u r : ℕ} (hr : r ≤ 2 ^ 53) (hu : u = 0 ∨ 2 ^ 52 ≤ r)
    (h : u * 2 ^ 52 + r < 2047 * 2 ^ 52) :
    Denotes (ofFields false (u * 2 ^ 52 + r)) (r * 2 ^ ((u : ℤ) - 1074)) := by
  have hbits := toNat_toBits_ofFields false (u * 2 ^ 52 + r) h.le
  rw [if_neg Bool.false_ne_true, zero_add] at hbits
  generalize ofFields false (u * 2 ^ 52 + r) = x at hbits ⊢
  have hpositive : isNegative x = false := by
    rw [isNegative, hbits, decide_eq_false_iff_not]
    omega
  have hexponent : exponentField x = (u * 2 ^ 52 + r) / 2 ^ 52 := by
    rw [exponentField, hbits]
    omega
  have hfraction : fractionField x = (u * 2 ^ 52 + r) % 2 ^ 52 := by
    rw [fractionField, hbits]
  refine ⟨?_, fun _ => hpositive, ?_⟩
  · rw [isFinite, bne_iff_ne, hexponent]
    omega
  · unfold exact
    rw [hexponent, hfraction]
    rcases Nat.lt_or_ge r (2 ^ 52) with hsmall | hlarge
    · obtain rfl : u = 0 := hu.resolve_right (by omega)
      have hzero : (0 * 2 ^ 52 + r) / 2 ^ 52 = 0 := by omega
      have hself : (0 * 2 ^ 52 + r) % 2 ^ 52 = r := by omega
      rw [hzero, hself]
      rfl
    · rcases Nat.lt_or_ge r (2 ^ 53) with hkept | hcarry
      · have hnext : (u * 2 ^ 52 + r) / 2 ^ 52 = u + 1 := by omega
        have hrest : 2 ^ 52 + (u * 2 ^ 52 + r) % 2 ^ 52 = r := by omega
        rw [hnext, if_neg (Nat.succ_ne_zero u), hrest]
        congr 2
        push_cast
        ring
      · obtain rfl : r = 2 ^ 53 := le_antisymm hr hcarry
        have hnext : (u * 2 ^ 52 + 2 ^ 53) / 2 ^ 52 = u + 2 := by omega
        have hrest : 2 ^ 52 + (u * 2 ^ 52 + 2 ^ 53) % 2 ^ 52 = 2 ^ 52 := by omega
        have hexponent' : ((u + 2 : ℕ) : ℤ) - 1075 = 1 + ((u : ℤ) - 1074) := by
          push_cast
          ring
        rw [hnext, if_neg (Nat.succ_ne_zero _), hrest, hexponent', zpow_add₀ two_ne_zero]
        push_cast
        ring

/-! ## The scale of a quotient -/

theorem two_pow_pos (a : ℤ) : (0 : ℚ) < 2 ^ a := zpow_pos two_pos a

theorem two_pow_le {a b : ℤ} : (2 : ℚ) ^ a ≤ 2 ^ b ↔ a ≤ b := zpow_le_zpow_iff_right₀ one_lt_two

theorem two_pow_lt {a b : ℤ} : (2 : ℚ) ^ a < 2 ^ b ↔ a < b := zpow_lt_zpow_iff_right₀ one_lt_two

/-- A power of two as a quotient of natural powers. -/
theorem two_pow_toNat (k : ℤ) : (2 : ℚ) ^ k.toNat = 2 ^ k * 2 ^ (-k).toNat := by
  have hexponent : (k.toNat : ℤ) = k + ((-k).toNat : ℤ) := by omega
  rw [← zpow_natCast, ← zpow_natCast, ← zpow_add₀ two_ne_zero, ← hexponent]

theorem le_log2 {n : ℕ} (h : n ≠ 0) : (2 : ℚ) ^ (n.log2 : ℤ) ≤ n := by
  rw [zpow_natCast]
  exact_mod_cast Nat.log2_self_le h

theorem lt_log2 (n : ℕ) : (n : ℚ) < 2 ^ ((n.log2 : ℤ) + 1) := by
  rw [← Nat.cast_succ, zpow_natCast]
  exact_mod_cast Nat.lt_log2_self

section

variable {num den : ℕ}

theorem reaches_iff (hd : 0 < den) (k : ℤ) : reaches num den k = true ↔ (2 : ℚ) ^ k ≤ num / den := by
  have hdq : (0 : ℚ) < den := by exact_mod_cast hd
  have hpos : (0 : ℚ) < 2 ^ (-k).toNat := by positivity
  have hcast : den * 2 ^ k.toNat ≤ num * 2 ^ (-k).toNat ↔
      ((den * 2 ^ k.toNat : ℕ) : ℚ) ≤ (num * 2 ^ (-k).toNat : ℕ) := Nat.cast_le.symm
  unfold reaches
  rw [decide_eq_true_iff, le_div_iff₀ hdq, hcast]
  push_cast
  rw [two_pow_toNat, ← mul_assoc, mul_le_mul_iff_left₀ hpos, mul_comm]

/-- The power of two at which a quotient begins. -/
theorem exists_scale (hn : num ≠ 0) (hd : 0 < den) :
    ∃ t : ℤ, (2 : ℚ) ^ t ≤ num / den ∧ (num : ℚ) / den < 2 ^ (t + 1) ∧
      unitExponent num den = max (-1074) (t - 52) := by
  have hdq : (0 : ℚ) < den := by exact_mod_cast hd
  have hupper : (num : ℚ) / den < 2 ^ ((num.log2 : ℤ) - den.log2 + 1) := by
    rw [div_lt_iff₀ hdq]
    calc (num : ℚ) < 2 ^ ((num.log2 : ℤ) + 1) := lt_log2 num
      _ = 2 ^ ((num.log2 : ℤ) - den.log2 + 1) * 2 ^ (den.log2 : ℤ) := by
        rw [← zpow_add₀ two_ne_zero]
        congr 1
        ring
      _ ≤ 2 ^ ((num.log2 : ℤ) - den.log2 + 1) * den :=
        mul_le_mul_of_nonneg_left (le_log2 hd.ne') (two_pow_pos _).le
  have hlower : (2 : ℚ) ^ ((num.log2 : ℤ) - den.log2 - 1) ≤ num / den := by
    rw [le_div_iff₀ hdq]
    calc (2 : ℚ) ^ ((num.log2 : ℤ) - den.log2 - 1) * den
        ≤ 2 ^ ((num.log2 : ℤ) - den.log2 - 1) * 2 ^ ((den.log2 : ℤ) + 1) :=
          mul_le_mul_of_nonneg_left (lt_log2 den).le (two_pow_pos _).le
      _ = 2 ^ (num.log2 : ℤ) := by
        rw [← zpow_add₀ two_ne_zero]
        congr 1
        ring
      _ ≤ num := le_log2 hn
  unfold unitExponent
  simp only
  generalize (num.log2 : ℤ) - den.log2 = guess at hupper hlower
  by_cases hreaches : reaches num den guess = true
  · rw [if_pos hreaches]
    exact ⟨guess, (reaches_iff hd guess).mp hreaches, hupper, rfl⟩
  · rw [if_neg hreaches]
    refine ⟨guess - 1, hlower, ?_, rfl⟩
    rw [sub_add_cancel]
    exact not_le.mp fun hle => hreaches ((reaches_iff hd guess).mpr hle)

theorem isNearest_roundAt (num : ℕ) (hd : 0 < den) (e : ℤ) :
    IsNearest ((num : ℚ) / den / 2 ^ e) (roundAt num den e : ℤ) := by
  have hnear := isNearest_roundDiv (num * 2 ^ (-e).toNat) (d := den * 2 ^ e.toNat) (by positivity)
  have hquotient : ((num * 2 ^ (-e).toNat : ℕ) : ℚ) / (den * 2 ^ e.toNat : ℕ) = num / den / 2 ^ e := by
    have hpos : (0 : ℚ) < 2 ^ (-e).toNat := by positivity
    push_cast
    rw [two_pow_toNat e, ← mul_assoc, mul_div_mul_right _ _ hpos.ne', div_div]
  rw [hquotient] at hnear
  exact hnear

/-! ## Rounding a quotient -/

/-- From this number on, the nearest float is infinity. -/
def limit : ℚ := 2 ^ 1024 - 2 ^ 970

theorem limit_eq : limit = (2 ^ 53 - 1 / 2) * 2 ^ (971 : ℤ) := by
  have htop : (2 : ℚ) ^ 1024 = 2 ^ 53 * 2 ^ 971 := pow_add 2 53 971
  have hhalf : (1 / 2 : ℚ) * 2 ^ 971 = 2 ^ 970 := by
    rw [pow_succ' (2 : ℚ) 970, ← mul_assoc, one_div, inv_mul_cancel₀ two_ne_zero, one_mul]
  rw [limit, zpow_ofNat, sub_mul, htop, hhalf]

/-- The units of the last place to which a quotient is rounded. -/
structure Units (num den : ℕ) (t : ℤ) (unit : ℤ) (r : ℕ) : Prop where
  le_unit : -1074 ≤ unit
  unit_eq : unit = max (-1074) (t - 52)
  nearest : IsNearest ((num : ℚ) / den / 2 ^ unit) (r : ℤ)
  le : r ≤ 2 ^ 53
  full : unit = -1074 ∨ 2 ^ 52 ≤ r

theorem exists_units (hn : num ≠ 0) (hd : 0 < den) :
    ∃ t : ℤ, (2 : ℚ) ^ t ≤ num / den ∧ (num : ℚ) / den < 2 ^ (t + 1) ∧
      Units num den t (unitExponent num den) (roundAt num den (unitExponent num den)) := by
  obtain ⟨t, hlow, hhigh, hunit⟩ := exists_scale hn hd
  refine ⟨t, hlow, hhigh, ?_, hunit, isNearest_roundAt num hd _, ?_, ?_⟩
  · rw [hunit]
    exact le_max_left _ _
  · have hnear := isNearest_roundAt num hd (unitExponent num den)
    refine Int.ofNat_le.mp (hnear.ge_of_ge ?_)
    rw [div_le_iff₀ (two_pow_pos _)]
    calc (num : ℚ) / den ≤ 2 ^ (t + 1) := hhigh.le
      _ ≤ 2 ^ (53 + unitExponent num den) := two_pow_le.mpr (by omega)
      _ = ((2 ^ 53 : ℕ) : ℤ) * 2 ^ unitExponent num den := by
        rw [zpow_add₀ two_ne_zero]
        norm_num
  · by_cases hmin : unitExponent num den = -1074
    · exact .inl hmin
    · right
      have hnear := isNearest_roundAt num hd (unitExponent num den)
      refine Int.ofNat_le.mp (hnear.le_of_le ?_)
      rw [le_div_iff₀ (two_pow_pos _)]
      calc (((2 ^ 52 : ℕ) : ℤ) : ℚ) * 2 ^ unitExponent num den
          = 2 ^ (52 + unitExponent num den) := by
            rw [zpow_add₀ two_ne_zero]
            norm_num
        _ ≤ 2 ^ t := two_pow_le.mpr (by omega)
        _ ≤ num / den := hlow

theorem limit_le : limit ≤ 2 ^ (1024 : ℤ) := by
  rw [zpow_ofNat, limit]
  exact sub_le_self _ (by positivity)

theorem pow_lt_limit : (2 : ℚ) ^ (1023 : ℤ) < limit := by
  have hexponent : (1023 : ℤ) = 52 + 971 := rfl
  rw [limit_eq, hexponent, zpow_add₀ two_ne_zero]
  refine mul_lt_mul_of_pos_right ?_ (two_pow_pos 971)
  norm_num

theorem one_lt_limit : 1 < limit := by
  have hone : (2 : ℚ) ^ (0 : ℤ) < 2 ^ (1023 : ℤ) := two_pow_lt.mpr (by decide)
  rw [zpow_zero] at hone
  exact hone.trans pow_lt_limit

/-- Every float is below the limit. -/
theorem Denotes.lt_limit {x : Float} {q : ℚ} (h : Denotes x q) : q < limit := by
  have hfield : exponentField x ≠ 2047 := bne_iff_ne.mp h.finite
  have hbound : exponentField x < 2048 := Nat.mod_lt _ (by decide)
  have hfraction : fractionField x < 2 ^ 52 := Nat.mod_lt _ (by positivity)
  obtain ⟨hmantissa, hexponent⟩ : (exact x).mantissa ≤ 2 ^ 53 - 1 ∧ (exact x).exponent ≤ 971 := by
    unfold exact
    split
    · show fractionField x ≤ 2 ^ 53 - 1 ∧ (-1074 : ℤ) ≤ 971
      omega
    · show 2 ^ 52 + fractionField x ≤ 2 ^ 53 - 1 ∧ (exponentField x : ℤ) - 1075 ≤ 971
      omega
  have hcast : ((exact x).mantissa : ℚ) ≤ 2 ^ 53 - 1 := by
    have hnat : (exact x).mantissa + 1 ≤ 2 ^ 53 := by omega
    rw [le_sub_iff_add_le]
    exact_mod_cast hnat
  rw [← h.value, limit_eq]
  calc (exact x).mantissa * (2 : ℚ) ^ (exact x).exponent
      ≤ (2 ^ 53 - 1) * 2 ^ (971 : ℤ) :=
        mul_le_mul hcast (two_pow_le.mpr hexponent) (two_pow_pos _).le (by norm_num)
    _ < (2 ^ 53 - 1 / 2) * 2 ^ (971 : ℤ) := mul_lt_mul_of_pos_right (by norm_num) (two_pow_pos 971)

/-- The tie below `2 ^ 53` goes up, because the number below is odd. -/
theorem carries_iff {y : ℚ} {r : ℕ} (h : IsNearest y (r : ℤ)) : 2 ^ 53 ≤ r ↔ 2 ^ 53 - 1 / 2 ≤ y := by
  constructor
  · intro hr
    have hrq : (2 : ℚ) ^ 53 ≤ r := by exact_mod_cast hr
    have hlower := (abs_le.mp h.abs_sub_le).1
    push_cast at hlower
    linarith
  · intro hy
    by_contra hlast
    have hrq : (r : ℚ) + 1 ≤ 2 ^ 53 := by exact_mod_cast not_le.mp hlast
    have hodd : r = 2 ^ 53 - 1 := by
      have hupper := (abs_le.mp h.abs_sub_le).2
      push_cast at hupper
      have hge : (2 ^ 53 : ℚ) ≤ (r : ℚ) + 1 := by linarith
      have hgeNat : 2 ^ 53 ≤ r + 1 := by exact_mod_cast hge
      omega
    rcases h with hstrict | ⟨-, heven⟩
    · have hupper := (abs_lt.mp hstrict).2
      push_cast at hupper
      linarith
    · rw [hodd] at heven
      exact absurd heven (by decide)

/-- The largest magnitude is passed exactly from the limit on. -/
theorem Units.fits_iff {t unit : ℤ} {r : ℕ} (h : Units num den t unit r)
    (hlow : (2 : ℚ) ^ t ≤ num / den) (hhigh : (num : ℚ) / den < 2 ^ (t + 1)) :
    (unit + 1074).toNat * 2 ^ 52 + r < 2047 * 2 ^ 52 ↔ (num : ℚ) / den < limit := by
  obtain ⟨hmin, hunit, hnear, hle, hfull⟩ := h
  constructor
  · intro hfits
    by_contra hlarge
    have ht : 1023 < t + 1 := two_pow_lt.mp ((pow_lt_limit.le.trans (not_lt.mp hlarge)).trans_lt hhigh)
    have hr : 2 ^ 52 ≤ r := hfull.resolve_left (by omega)
    obtain rfl : unit = 971 := by omega
    have hscaled : (2 ^ 53 - 1 / 2 : ℚ) ≤ num / den / 2 ^ (971 : ℤ) := by
      rw [le_div_iff₀ (two_pow_pos 971), ← limit_eq]
      exact not_lt.mp hlarge
    have hcarry := (carries_iff hnear).mpr hscaled
    omega
  · intro hlt
    have ht : t < 1024 := two_pow_lt.mp ((hlow.trans_lt hlt).trans_le limit_le)
    rcases Nat.lt_or_ge r (2 ^ 53) with hr | hr
    · omega
    · obtain rfl : r = 2 ^ 53 := le_antisymm hle hr
      have hne : unit ≠ 971 := by
        rintro rfl
        have hscaled := (carries_iff hnear).mp le_rfl
        rw [le_div_iff₀ (two_pow_pos 971), ← limit_eq] at hscaled
        exact absurd hlt (not_lt.mpr hscaled)
      omega

/-- A quotient below the limit becomes the float with the nearest number of units. -/
theorem denotes_ofRatio (hn : num ≠ 0) (hd : 0 < den) (h : (num : ℚ) / den < limit) :
    Denotes (ofRatio false num den)
      (roundAt num den (unitExponent num den) * 2 ^ unitExponent num den) := by
  obtain ⟨t, hlow, hhigh, hunits⟩ := exists_units hn hd
  have hfits := (hunits.fits_iff hlow hhigh).mpr h
  have hmin := hunits.le_unit
  have hunit : unitExponent num den = ((unitExponent num den + 1074).toNat : ℤ) - 1074 := by omega
  rw [ofRatio, if_neg hn]
  simp only
  rw [if_pos hfits]
  have hdenotes := denotes_units hunits.le (hunits.full.imp_left fun hzero => by omega) hfits
  rw [← hunit] at hdenotes
  exact hdenotes

theorem isInfinity_ofRatio (hd : 0 < den) (h : limit ≤ (num : ℚ) / den) :
    IsInfinity (ofRatio false num den) := by
  have hn : num ≠ 0 := by
    rintro rfl
    have hpos := (two_pow_pos 1023).trans_le (pow_lt_limit.le.trans h)
    rw [Nat.cast_zero, zero_div] at hpos
    exact lt_irrefl 0 hpos
  obtain ⟨t, hlow, hhigh, hunits⟩ := exists_units hn hd
  rw [ofRatio, if_neg hn]
  simp only
  rw [if_neg fun hfits => absurd ((hunits.fits_iff hlow hhigh).mp hfits) (not_lt.mpr h)]
  exact isInfinity_infinity

/-- Rounding passes no power of two that a normal number can begin with. -/
theorem pow_le_rounded (hn : num ≠ 0) (hd : 0 < den) {j : ℤ} (hj : -1022 ≤ j)
    (h : (2 : ℚ) ^ j ≤ num / den) :
    (2 : ℚ) ^ j ≤ roundAt num den (unitExponent num den) * 2 ^ unitExponent num den := by
  obtain ⟨t, hlow, hhigh, hunits⟩ := exists_units hn hd
  have hjt : j < t + 1 := two_pow_lt.mp (h.trans_lt hhigh)
  have hunit := hunits.unit_eq
  have hnear := hunits.nearest
  generalize unitExponent num den = unit at hunit hnear ⊢
  obtain ⟨k, hk⟩ := Int.le.dest (show unit ≤ t by omega)
  have hr : ((2 ^ k : ℕ) : ℤ) ≤ roundAt num den unit := by
    refine hnear.le_of_le ?_
    rw [le_div_iff₀ (two_pow_pos _)]
    push_cast
    rw [← zpow_natCast, ← zpow_add₀ two_ne_zero, add_comm, hk]
    exact hlow
  calc (2 : ℚ) ^ j ≤ 2 ^ t := two_pow_le.mpr (by omega)
    _ = (2 ^ k : ℕ) * 2 ^ unit := by
      push_cast
      rw [← zpow_natCast, ← zpow_add₀ two_ne_zero, add_comm, hk]
    _ ≤ roundAt num den unit * 2 ^ unit :=
      mul_le_mul_of_nonneg_right (by exact_mod_cast hr) (two_pow_pos _).le

/-- A natural number of less than 54 digits is a number of units. -/
theorem rounded_natural {n : ℕ} (hn : n ≠ 0) (h : n < 2 ^ 53) :
    (roundAt n 1 (unitExponent n 1) : ℚ) * 2 ^ unitExponent n 1 = n := by
  obtain ⟨t, hlow, hhigh, hunits⟩ := exists_units hn Nat.one_pos
  have hnq : (n : ℚ) < 2 ^ (53 : ℤ) := by
    rw [zpow_ofNat]
    exact_mod_cast h
  rw [Nat.cast_one, div_one] at hlow
  have ht : t < 53 := two_pow_lt.mp (hlow.trans_lt hnq)
  have hunit := hunits.unit_eq
  have hnear := hunits.nearest
  generalize unitExponent n 1 = unit at hunit hnear ⊢
  obtain ⟨k, hk⟩ := Int.le.dest (show unit ≤ 0 by omega)
  obtain rfl : unit = -(k : ℤ) := by omega
  have hwhole : (n : ℚ) / (1 : ℕ) / 2 ^ (-(k : ℤ)) = ((n * 2 ^ k : ℕ) : ℤ) := by
    rw [Nat.cast_one, div_one, zpow_neg, div_inv_eq_mul, zpow_natCast]
    push_cast
    rfl
  rw [hwhole] at hnear
  have hr : (roundAt n 1 (-(k : ℤ)) : ℤ) = (n * 2 ^ k : ℕ) := hnear.unique (IsNearest.self _)
  have hrq : (roundAt n 1 (-(k : ℤ)) : ℚ) = (n * 2 ^ k : ℕ) := by exact_mod_cast hr
  rw [hrq, zpow_neg, zpow_natCast]
  push_cast
  field_simp

end

end LedgerClient.Binary
