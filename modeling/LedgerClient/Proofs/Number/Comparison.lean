import LedgerClient.Proofs.Number.Rounding

/-!
# Decimals in their order

The comparison of two decimals that are not negative is that of the numbers they denote: the places of
their first digits decide, and where these are the same the coefficients at a common exponent. Infinity is
above all of them.
-/

namespace LedgerClient.Decimal

/-- A coefficient at its exponent is one at a lower exponent. -/
theorem scaled_eq (c : ℕ) (e f : ℤ) :
    ((c * 10 ^ (e - f).toNat : ℕ) : ℚ) * 10 ^ (min e f) = c * 10 ^ e := by
  have hexponent : e = ((e - f).toNat : ℤ) + min e f := by omega
  rw [Nat.cast_mul, Nat.cast_pow, Nat.cast_ofNat, mul_assoc, ← zpow_natCast, ← ten_pow_add, ← hexponent]

theorem compareMagnitudes_eq_lt_iff {c d : ℕ} (hc : c ≠ 0) (hd : d ≠ 0) (e f : ℤ) :
    compareMagnitudes c e d f = .lt ↔ (c : ℚ) * 10 ^ e < d * 10 ^ f := by
  unfold compareMagnitudes
  rcases lt_trichotomy (adjusted c e) (adjusted d f) with hlt | heq | hgt
  · have hcompare : compare (adjusted c e) (adjusted d f) = .lt := Int.compare_eq_lt.mpr hlt
    rw [hcompare]
    refine iff_of_true rfl ?_
    calc (c : ℚ) * 10 ^ e < 10 ^ (adjusted c e + 1) := lt_pow_adjusted c e
      _ ≤ 10 ^ adjusted d f := ten_pow_le.mpr hlt
      _ ≤ d * 10 ^ f := pow_adjusted_le hd f
  · have hcompare : compare (adjusted c e) (adjusted d f) = .eq := Int.compare_eq_eq.mpr heq
    rw [hcompare]
    show compare _ _ = Ordering.lt ↔ _
    rw [Nat.compare_eq_lt, ← scaled_eq c e f, ← scaled_eq d f e, min_comm f e,
      mul_lt_mul_iff_left₀ (ten_pow_pos _), Nat.cast_lt]
  · have hcompare : compare (adjusted c e) (adjusted d f) = .gt := Int.compare_eq_gt.mpr hgt
    rw [hcompare]
    refine iff_of_false (by simp) (not_lt.mpr ?_)
    calc (d : ℚ) * 10 ^ f ≤ 10 ^ (adjusted d f + 1) := (lt_pow_adjusted d f).le
      _ ≤ 10 ^ adjusted c e := ten_pow_le.mpr hgt
      _ ≤ c * 10 ^ e := pow_adjusted_le hc e

/-! ## Numbers that are not negative -/

/-- The decimal denotes a number that is not negative. -/
structure Denotes (d : Decimal) (x : ℚ) : Prop where
  finite : d.isFinite = true
  value : d.value = x
  nonneg : 0 ≤ x

theorem Denotes.eq_finite {d : Decimal} {x : ℚ} (h : d.Denotes x) :
    ∃ negative c e, d = .finite negative c e ∧ x = c * 10 ^ e ∧ (c ≠ 0 → negative = false) := by
  obtain ⟨hfinite, hvalue, hnonneg⟩ := h
  cases d with
  | finite negative c e =>
    rw [value_finite] at hvalue
    cases negative with
    | false => exact ⟨false, c, e, rfl, hvalue.symm, fun _ => rfl⟩
    | true =>
      have hzero : (c : ℚ) * 10 ^ e = 0 := by
        have hmagnitude : (0 : ℚ) ≤ c * 10 ^ e := mul_nonneg (Nat.cast_nonneg c) (ten_pow_pos e).le
        rw [if_pos rfl] at hvalue
        linarith
      have hc : c = 0 := by
        rcases mul_eq_zero.mp hzero with h | h
        · exact_mod_cast h
        · exact absurd h (ten_pow_pos e).ne'
      refine ⟨true, c, e, rfl, ?_, fun hne => absurd hc hne⟩
      rw [← hvalue, if_pos rfl, hzero, neg_zero]
  | infinite => cases hfinite
  | nan => cases hfinite

theorem sign_of_denotes {negative : Bool} {c : ℕ} {e : ℤ} (h : c ≠ 0 → negative = false) :
    (finite negative c e).sign = if c = 0 then 0 else 1 := by
  show (if c = 0 then 0 else if negative then -1 else 1) = _
  by_cases hc : c = 0
  · rw [if_pos hc, if_pos hc]
  · rw [if_neg hc, if_neg hc, h hc]
    rfl

/-- Numbers that are not negative are compared by their values. -/
theorem compare?_eq_lt_iff {a b : Decimal} {x y : ℚ} (ha : a.Denotes x) (hb : b.Denotes y) :
    a.compare? b = some .lt ↔ x < y := by
  obtain ⟨s, c, e, rfl, rfl, hs⟩ := ha.eq_finite
  obtain ⟨t, d, f, rfl, rfl, ht⟩ := hb.eq_finite
  have hpos : ∀ {k : ℕ} (g : ℤ), k ≠ 0 → (0 : ℚ) < k * 10 ^ g := fun g hk =>
    mul_pos (Nat.cast_pos.mpr (Nat.pos_of_ne_zero hk)) (ten_pow_pos g)
  unfold compare?
  simp only [sign_of_denotes hs, sign_of_denotes ht]
  by_cases hc : c = 0
  · by_cases hd : d = 0
    · subst hc hd
      rw [Nat.cast_zero, zero_mul, zero_mul]
      exact iff_of_false (by simp) (lt_irrefl 0)
    · rw [if_pos hc, if_neg hd, hc, Nat.cast_zero, zero_mul]
      exact iff_of_true rfl (hpos f hd)
  · by_cases hd : d = 0
    · rw [if_neg hc, if_pos hd, hd, Nat.cast_zero, zero_mul]
      have hgreater : compare (1 : ℤ) 0 = .gt := by decide
      refine iff_of_false ?_ (hpos e hc).le.not_gt
      rw [if_pos (by decide), hgreater]
      simp
    · rw [if_neg hc, if_neg hd, ← compareMagnitudes_eq_lt_iff hc hd]
      exact Option.some_inj

/-- Every such number is below infinity. -/
theorem compare?_infinite {a : Decimal} {x : ℚ} (ha : a.Denotes x) :
    a.compare? (.infinite false) = some .lt := by
  obtain ⟨s, c, e, rfl, -, hs⟩ := ha.eq_finite
  unfold compare?
  simp only [sign_of_denotes hs]
  by_cases hc : c = 0
  · rw [if_pos hc]
    rfl
  · rw [if_neg hc]
    rfl

end LedgerClient.Decimal
