import LedgerClient.Proofs.Number.Ratio

/-!
# Powers of floats

A power below the limit of the format is a float, and up to the exponent 1100 one from the limit on is none.
Beyond this exponent only the leading digits are computed. They never exceed the power and keep the place
of its first digit, which decides for every base from two on.
-/

namespace LedgerClient.Binary

/-! ## Whole numbers as floats -/

theorem ofInt?_natCast (n : ℕ) :
    ofInt? n = if isFinite (ofRatio false n 1) then some (ofRatio false n 1) else none := by
  have hsign : decide ((n : ℤ) < 0) = false := decide_eq_false (by omega)
  rw [ofInt?, hsign]
  rfl

theorem ofInt?_of_lt {n : ℕ} (h : (n : ℚ) < limit) :
    ∃ x q, ofInt? n = some x ∧ Denotes x q ∧ (n < 2 ^ 53 → q = n) ∧
      ∀ j : ℕ, 2 ^ j ≤ n → (2 : ℚ) ^ j ≤ q := by
  by_cases hn : n = 0
  · subst hn
    have hzero := denotes_signedZero false
    refine ⟨signedZero false, 0, ?_, hzero, fun _ => Nat.cast_zero.symm, fun j hj => ?_⟩
    · rw [ofInt?_natCast, ofRatio_zero, if_pos hzero.finite]
    · exact absurd hj (Nat.not_le.mpr (by positivity))
  · have hdenotes := denotes_ofRatio hn Nat.one_pos (by rw [Nat.cast_one, div_one]; exact h)
    refine ⟨_, _, ?_, hdenotes, rounded_natural hn, fun j hj => ?_⟩
    · rw [ofInt?_natCast, if_pos hdenotes.finite]
    · have hpow := pow_le_rounded (j := j) hn Nat.one_pos (by omega) (by
        rw [Nat.cast_one, div_one, zpow_natCast]
        exact_mod_cast hj)
      rw [zpow_natCast] at hpow
      exact hpow

theorem ofInt?_of_le {n : ℕ} (h : limit ≤ n) : ofInt? n = none := by
  have hinf : IsInfinity (ofRatio false n 1) :=
    isInfinity_ofRatio Nat.one_pos (by rw [Nat.cast_one, div_one]; exact h)
  rw [ofInt?_natCast, isFinite_of_isInfinity hinf]
  rfl

/-- A float as a quotient. -/
theorem ratio_eq (m : ℕ) (e : ℤ) :
    ((m * 2 ^ e.toNat : ℕ) : ℚ) / (2 ^ (-e).toNat : ℕ) = m * 2 ^ e := by
  have hpos : (0 : ℚ) < 2 ^ (-e).toNat := by positivity
  push_cast
  rw [two_pow_toNat e, ← mul_assoc, mul_div_assoc, div_self hpos.ne', mul_one]

theorem Denotes.truncate? {x : Float} {q : ℚ} (h : Denotes x q) :
    ((truncate? x).getD 0).toNat = ⌊q⌋₊ := by
  rw [Binary.truncate?, if_pos h.finite, ← h.value, ← ratio_eq, Nat.floor_div_eq_div]
  simp only [exact_negative, Option.getD_some]
  split
  · next hnegative =>
    rw [h.mantissa_eq_zero hnegative, zero_mul, Nat.zero_div]
    rfl
  · rfl

/-! ## Leading digits -/

theorem cut_le (m : ℕ) (e : ℤ) : ((cut m e).1 : ℚ) * 2 ^ (cut m e).2 ≤ m * 2 ^ e := by
  unfold cut
  simp only
  generalize m.log2 - 255 = extra
  have hdiv : ((m / 2 ^ extra : ℕ) : ℚ) * 2 ^ extra ≤ m := by exact_mod_cast Nat.div_mul_le_self m _
  calc ((m / 2 ^ extra : ℕ) : ℚ) * 2 ^ (e + extra)
      = (m / 2 ^ extra : ℕ) * 2 ^ extra * 2 ^ e := by
        rw [zpow_add₀ two_ne_zero, zpow_natCast]
        ring
    _ ≤ m * 2 ^ e := mul_le_mul_of_nonneg_right hdiv (two_pow_pos e).le

/-- The number begins at this power of two or above it. -/
def Begins (r : ℕ × ℤ) (k : ℤ) : Prop := r.1 ≠ 0 ∧ k ≤ (r.1.log2 : ℤ) + r.2

theorem begins_cut {m : ℕ} {e k : ℤ} (h : Begins (m, e) k) : Begins (cut m e) k := by
  obtain ⟨hm, hk⟩ := h
  unfold cut
  simp only at hm hk ⊢
  have hextra : m.log2 - 255 ≤ m.log2 := Nat.sub_le _ _
  generalize m.log2 - 255 = extra at hextra
  have hlow : 2 ^ (m.log2 - extra) ≤ m / 2 ^ extra := by
    rw [Nat.le_div_iff_mul_le (by positivity), ← pow_add, Nat.sub_add_cancel hextra]
    exact Nat.log2_self_le hm
  have hne : m / 2 ^ extra ≠ 0 := by
    have hpos : 0 < 2 ^ (m.log2 - extra) := by positivity
    omega
  have hlog := (Nat.le_log2 hne).mpr hlow
  refine ⟨hne, ?_⟩
  show k ≤ ((m / 2 ^ extra).log2 : ℤ) + (e + extra)
  omega

theorem Begins.mul {m n : ℕ} {e f k l : ℤ} (hm : Begins (m, e) k) (hn : Begins (n, f) l) :
    Begins (m * n, e + f) (k + l) := by
  obtain ⟨hm, hk⟩ := hm
  obtain ⟨hn, hl⟩ := hn
  simp only at hm hn hk hl
  have hlow : 2 ^ (m.log2 + n.log2) ≤ m * n := by
    rw [pow_add]
    exact Nat.mul_le_mul (Nat.log2_self_le hm) (Nat.log2_self_le hn)
  have hne : m * n ≠ 0 := Nat.mul_ne_zero hm hn
  have hlog := (Nat.le_log2 hne).mpr hlow
  refine ⟨hne, ?_⟩
  show k + l ≤ ((m * n).log2 : ℤ) + (e + f)
  omega

/-- One binary digit of the exponent further. -/
def powerStep (m : ℕ) (e : ℤ) (n : ℕ) (r : ℕ × ℤ) (k : ℕ) : ℕ × ℤ :=
  let squared := cut (r.1 * r.1) (2 * r.2)
  if n.testBit k then cut (squared.1 * m) (squared.2 + e) else squared

theorem leadingPower_eq_foldl (m : ℕ) (e : ℤ) (n : ℕ) :
    leadingPower m e n = (List.range (n.log2 + 1)).reverse.foldl (powerStep m e n) (1, 0) := rfl

/-- A digit doubles what stands before it and adds itself. -/
theorem div_two_pow (n t : ℕ) :
    n / 2 ^ t = if n.testBit t then 2 * (n / 2 ^ (t + 1)) + 1 else 2 * (n / 2 ^ (t + 1)) := by
  rw [Nat.testBit_eq_decide_div_mod_eq, pow_succ, ← Nat.div_div_eq_div_mul]
  generalize n / 2 ^ t = q
  split
  · next hone =>
    have hodd := of_decide_eq_true hone
    omega
  · next hzero =>
    have heven : ¬q % 2 = 1 := fun hodd => hzero (decide_eq_true hodd)
    omega

/-- What holds of the power zero and survives a squaring and a multiplication holds of every power. -/
theorem leadingPower_induction {m : ℕ} {e : ℤ} {P : ℕ → ℕ × ℤ → Prop} (hone : P 0 (1, 0))
    (hsquare : ∀ k r, P k r → P (2 * k) (cut (r.1 * r.1) (2 * r.2)))
    (htimes : ∀ k r, P k r → P (k + 1) (cut (r.1 * m) (r.2 + e))) (n : ℕ) :
    P n (leadingPower m e n) := by
  -- With `t` digits left the fold has come to the power of what stands above them.
  have hfold : ∀ t r, P (n / 2 ^ t) r → P n ((List.range t).reverse.foldl (powerStep m e n) r) := by
    intro t
    induction t with
    | zero =>
      intro r hr
      rw [pow_zero, Nat.div_one] at hr
      exact hr
    | succ t ih =>
      intro r hr
      rw [List.range_succ, List.reverse_append, List.reverse_singleton, List.singleton_append,
        List.foldl_cons]
      refine ih _ ?_
      rw [div_two_pow]
      unfold powerStep
      simp only
      split
      · exact htimes _ _ (hsquare _ _ hr)
      · exact hsquare _ _ hr
  rw [leadingPower_eq_foldl]
  refine hfold _ _ ?_
  rw [Nat.div_eq_of_lt Nat.lt_log2_self]
  exact hone

theorem leadingPower_le (m : ℕ) (e : ℤ) (n : ℕ) :
    ((leadingPower m e n).1 : ℚ) * 2 ^ (leadingPower m e n).2 ≤ (m * 2 ^ e) ^ n := by
  have hbase : (0 : ℚ) ≤ m * 2 ^ e := by positivity
  refine leadingPower_induction (P := fun n r => (r.1 : ℚ) * 2 ^ r.2 ≤ (m * 2 ^ e) ^ n) ?_ ?_ ?_ n
  · simp
  · intro k r hr
    calc ((cut (r.1 * r.1) (2 * r.2)).1 : ℚ) * 2 ^ (cut (r.1 * r.1) (2 * r.2)).2
        ≤ (r.1 * r.1 : ℕ) * 2 ^ (2 * r.2) := cut_le _ _
      _ = (r.1 * 2 ^ r.2) * (r.1 * 2 ^ r.2) := by
        push_cast
        rw [two_mul r.2, zpow_add₀ two_ne_zero]
        ring
      _ ≤ (m * 2 ^ e) ^ k * (m * 2 ^ e) ^ k :=
        mul_le_mul hr hr (by positivity) (by positivity)
      _ = (m * 2 ^ e) ^ (2 * k) := by rw [← pow_add, two_mul]
  · intro k r hr
    calc ((cut (r.1 * m) (r.2 + e)).1 : ℚ) * 2 ^ (cut (r.1 * m) (r.2 + e)).2
        ≤ (r.1 * m : ℕ) * 2 ^ (r.2 + e) := cut_le _ _
      _ = (r.1 * 2 ^ r.2) * (m * 2 ^ e) := by
        push_cast
        rw [zpow_add₀ two_ne_zero]
        ring
      _ ≤ (m * 2 ^ e) ^ k * (m * 2 ^ e) := mul_le_mul_of_nonneg_right hr hbase
      _ = (m * 2 ^ e) ^ (k + 1) := (pow_succ _ _).symm

theorem begins_leadingPower {m : ℕ} {e l : ℤ} (h : Begins (m, e) l) (n : ℕ) :
    Begins (leadingPower m e n) (n * l) := by
  refine leadingPower_induction (P := fun n r => Begins r (n * l)) ?_ ?_ ?_ n
  · exact ⟨one_ne_zero, by simp⟩
  · intro k r hr
    have hsquare := hr.mul hr
    rw [← two_mul, ← two_mul, ← mul_assoc] at hsquare
    push_cast
    exact begins_cut hsquare
  · intro k r hr
    have htimes := hr.mul h
    push_cast
    rw [add_mul, one_mul]
    exact begins_cut htimes

/-! ## Powers -/

theorem powerDigits_of_gt (m : ℕ) (e : ℤ) {n : ℕ} (h : 1100 < n) :
    powerDigits m e n = leadingPower m e n := if_neg (not_le.mpr h)

theorem powerDigits_value (m : ℕ) (e : ℤ) {n : ℕ} (h : n ≤ 1100) :
    ((powerDigits m e n).1 : ℚ) * 2 ^ (powerDigits m e n).2 = (m * 2 ^ e) ^ n := by
  rw [powerDigits_of_le m e h, mul_pow, zpow_mul, zpow_natCast]
  push_cast
  rfl

theorem powerDigits_le (m : ℕ) (e : ℤ) (n : ℕ) :
    ((powerDigits m e n).1 : ℚ) * 2 ^ (powerDigits m e n).2 ≤ (m * 2 ^ e) ^ n := by
  rcases Nat.lt_or_ge 1100 n with hlarge | hsmall
  · rw [powerDigits_of_gt m e hlarge]
    exact leadingPower_le m e n
  · exact (powerDigits_value m e hsmall).le

theorem powerDigits_ne_zero {m : ℕ} (hm : m ≠ 0) (e : ℤ) (n : ℕ) : (powerDigits m e n).1 ≠ 0 := by
  rcases Nat.lt_or_ge 1100 n with hlarge | hsmall
  · rw [powerDigits_of_gt m e hlarge]
    exact (begins_leadingPower (e := e) ⟨hm, le_rfl⟩ n).1
  · rw [powerDigits_of_le m e hsmall]
    exact pow_ne_zero n hm

variable {x : Float} {a : ℚ} {n : ℕ}

/-- The power of a positive number by its digits. -/
theorem pow?_eq (h : Denotes x a) (hn : n ≠ 0) (hm : (exact x).mantissa ≠ 0) {m : ℕ} {e : ℤ}
    (hdigits : powerDigits (exact x).mantissa (exact x).exponent n = (m, e)) :
    pow? x n =
      if 1100 < (m.log2 : ℤ) + e then none
      else if (m.log2 : ℤ) + e < -1100 then some (signedZero false)
      else if isFinite (ofRatio false (m * 2 ^ e.toNat) (2 ^ (-e).toNat)) then
        some (ofRatio false (m * 2 ^ e.toNat) (2 ^ (-e).toNat))
      else none := by
  obtain ⟨hnan, hinf⟩ := not_special_of_isFinite h.finite
  have hsign : (exact x).negative = false := by
    rw [exact_negative]
    exact h.unsigned hm
  rw [pow?, if_neg hn, hnan, hinf]
  simp only [Bool.false_eq_true, if_false, hsign, Bool.false_and, if_neg hm, hdigits]

theorem le_digits {m : ℕ} (hm : m ≠ 0) (e : ℤ) : (2 : ℚ) ^ ((m.log2 : ℤ) + e) ≤ m * 2 ^ e := by
  rw [zpow_add₀ two_ne_zero]
  exact mul_le_mul_of_nonneg_right (le_log2 hm) (two_pow_pos e).le

theorem digits_lt (m : ℕ) (e : ℤ) : (m : ℚ) * 2 ^ e < 2 ^ ((m.log2 : ℤ) + e + 1) := by
  rw [add_right_comm, zpow_add₀ two_ne_zero]
  exact mul_lt_mul_of_pos_right (lt_log2 m) (two_pow_pos e)

/-- The digits decide whether there is a power. -/
theorem pow?_of_digits (h : Denotes x a) (hn : n ≠ 0) (hmantissa : (exact x).mantissa ≠ 0) {d : ℕ × ℤ}
    (hdigits : powerDigits (exact x).mantissa (exact x).exponent n = d) (hm : d.1 ≠ 0) :
    ((d.1 : ℚ) * 2 ^ d.2 < limit → ∃ y q, pow? x n = some y ∧ Denotes y q) ∧
      (limit ≤ (d.1 : ℚ) * 2 ^ d.2 → pow? x n = none) := by
  obtain ⟨m, e⟩ := d
  simp only at hm ⊢
  rw [pow?_eq h hn hmantissa hdigits]
  have hnum : m * 2 ^ e.toNat ≠ 0 := by positivity
  have hden : 0 < 2 ^ (-e).toNat := by positivity
  have hlow := le_digits hm e
  have hhigh := digits_lt m e
  constructor
  -- The tests of the size are far outside the format, so that only the rounding decides.
  · intro hlt
    have hsize : (m.log2 : ℤ) + e < 1024 := two_pow_lt.mp ((hlow.trans_lt hlt).trans_le limit_le)
    rw [if_neg (by omega)]
    split
    · exact ⟨_, 0, rfl, denotes_signedZero false⟩
    · have hdenotes := denotes_ofRatio hnum hden (by rw [ratio_eq]; exact hlt)
      rw [if_pos hdenotes.finite]
      exact ⟨_, _, rfl, hdenotes⟩
  · intro hle
    have hsize : 1023 < (m.log2 : ℤ) + e + 1 := two_pow_lt.mp ((pow_lt_limit.le.trans hle).trans_lt hhigh)
    split
    · rfl
    · rw [if_neg (by omega), isFinite_of_isInfinity (isInfinity_ofRatio hden (by rw [ratio_eq]; exact hle))]
      rfl

/-- A base that is zero, or an exponent that is, makes no difference to the format. -/
theorem pow?_trivial (h : Denotes x a) (htrivial : n = 0 ∨ (exact x).mantissa = 0) :
    ∃ y q, pow? x n = some y ∧ Denotes y q := by
  by_cases hn : n = 0
  · have hlt : ((1 : ℕ) : ℚ) / (1 : ℕ) < limit := by
      rw [Nat.cast_one, div_one]
      exact one_lt_limit
    refine ⟨_, _, ?_, denotes_ofRatio one_ne_zero Nat.one_pos hlt⟩
    rw [pow?, if_pos hn]
  · have hmantissa := htrivial.resolve_left hn
    obtain ⟨hnan, hinf⟩ := not_special_of_isFinite h.finite
    refine ⟨signedZero ((exact x).negative && decide (n % 2 = 1)), 0, ?_, denotes_signedZero _⟩
    rw [pow?, if_neg hn, hnan, hinf]
    simp only [Bool.false_eq_true, if_false, hmantissa, if_true]

/-- A power below the limit is a float. -/
theorem pow?_of_lt (h : Denotes x a) (hlt : a ^ n < limit) : ∃ y q, pow? x n = some y ∧ Denotes y q := by
  by_cases htrivial : n = 0 ∨ (exact x).mantissa = 0
  · exact pow?_trivial h htrivial
  · obtain ⟨hn, hmantissa⟩ := not_or.mp htrivial
    refine (pow?_of_digits h hn hmantissa rfl (powerDigits_ne_zero hmantissa _ n)).1 ?_
    refine (powerDigits_le _ _ n).trans_lt ?_
    rw [h.value]
    exact hlt

/-- A power from the limit on is none, as far as all of its digits are computed. -/
theorem pow?_of_le (h : Denotes x a) (hn : n ≤ 1100) (hle : limit ≤ a ^ n) : pow? x n = none := by
  have hlarge : 1 < a ^ n := one_lt_limit.trans_le hle
  have hpos : n ≠ 0 := by
    rintro rfl
    rw [pow_zero] at hlarge
    exact lt_irrefl 1 hlarge
  have hmantissa : (exact x).mantissa ≠ 0 := by
    intro hzero
    rw [← h.value, hzero, Nat.cast_zero, zero_mul, zero_pow hpos] at hlarge
    exact absurd hlarge (by norm_num)
  refine (pow?_of_digits h hpos hmantissa rfl (powerDigits_ne_zero hmantissa _ n)).2 ?_
  rw [powerDigits_value _ _ hn, h.value]
  exact hle

/-- From the exponent 1024 on, every power of a base from two on is beyond the limit. -/
theorem limit_le_pow {a : ℚ} {n : ℕ} (ha : 2 ≤ a) (hn : 1024 ≤ n) : limit ≤ a ^ n :=
  calc limit ≤ 2 ^ (1024 : ℤ) := limit_le
    _ = 2 ^ 1024 := zpow_ofNat 2 1024
    _ ≤ 2 ^ n := pow_le_pow_right₀ one_le_two hn
    _ ≤ a ^ n := pow_le_pow_left₀ zero_le_two ha n

/-- From the exponent 1024 on, no base from two on has a power. -/
theorem pow?_of_two_le (h : Denotes x a) (ha : 2 ≤ a) (hn : 1024 ≤ n) : pow? x n = none := by
  rcases Nat.lt_or_ge 1100 n with hlarge | hsmall
  · have hmantissa : (exact x).mantissa ≠ 0 := by
      intro hzero
      rw [← h.value, hzero, Nat.cast_zero, zero_mul] at ha
      exact absurd ha (by norm_num)
    have hbegins : Begins ((exact x).mantissa, (exact x).exponent) 1 := by
      refine ⟨hmantissa, ?_⟩
      have hfirst := digits_lt (exact x).mantissa (exact x).exponent
      rw [h.value] at hfirst
      have hexponent : (1 : ℤ) < ((exact x).mantissa.log2 : ℤ) + (exact x).exponent + 1 :=
        two_pow_lt.mp (by rw [zpow_one]; exact ha.trans_lt hfirst)
      show (1 : ℤ) ≤ ((exact x).mantissa.log2 : ℤ) + (exact x).exponent
      omega
    obtain ⟨hne, hsize⟩ := begins_leadingPower hbegins n
    refine (pow?_of_digits h (by omega) hmantissa (powerDigits_of_gt _ _ hlarge) hne).2 ?_
    refine (limit_le.trans (two_pow_le.mpr ?_)).trans (le_digits hne _)
    rw [mul_one] at hsize
    omega
  · exact pow?_of_le h hsmall (limit_le_pow ha hn)

/-- There is no power, or one that is not negative. -/
theorem pow?_cases (h : Denotes x a) (n : ℕ) :
    pow? x n = none ∨ ∃ y q, pow? x n = some y ∧ Denotes y q := by
  by_cases htrivial : n = 0 ∨ (exact x).mantissa = 0
  · exact .inr (pow?_trivial h htrivial)
  · obtain ⟨hn, hmantissa⟩ := not_or.mp htrivial
    have hdigits := pow?_of_digits h hn hmantissa rfl (powerDigits_ne_zero hmantissa _ n)
    rcases lt_or_ge _ limit with hlt | hle
    · exact .inr (hdigits.1 hlt)
    · exact .inl (hdigits.2 hle)

end LedgerClient.Binary
