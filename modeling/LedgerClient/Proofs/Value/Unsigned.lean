import LedgerClient.Proofs.Number.Exponential
import LedgerClient.Proofs.Number.Numeral
import LedgerClient.Proofs.Value.Order
import LedgerClient.Value.Arithmetic

/-!
# Arithmetic on numbers that are not negative

An integer, a truth value or a float may denote a number that is not negative. Powers and products of
such values are such values again, or they overflow, and they overflow only where a float takes part. A
product of floats may be infinity, and the smaller of it and a number is a number all the same.
-/

namespace LedgerClient.Value

open Binary (limit)

/-- The value denotes a number that is not negative. -/
inductive Denotes : Value → ℚ → Prop where
  | integer {v : Value} {n : ℕ} (h : v.integer? = some (n : ℤ)) : Denotes v n
  | float {x : Float} {q : ℚ} (h : Binary.Denotes x q) : Denotes (.float x) q

/-- The value is a float. -/
def IsFloat (v : Value) : Prop := ∃ x, v = .float x

/-- The value denotes a number that is not negative, or it is infinity. -/
def IsUnsigned (v : Value) : Prop := (∃ q, v.Denotes q) ∨ ∃ x, v = .float x ∧ Binary.IsInfinity x

variable {v a b : Value} {p q : ℚ} {n : ℕ}

theorem denotes_natural (n : ℕ) : Denotes (.int n) n := .integer rfl

theorem Denotes.nonneg (h : v.Denotes q) : 0 ≤ q := by
  cases h with
  | integer h => exact Nat.cast_nonneg _
  | float h => exact h.nonneg

theorem Denotes.of_float {x : Float} (h : Denotes (.float x) q) : Binary.Denotes x q := by
  cases h with
  | integer h => cases h
  | float h => exact h

theorem Denotes.lt_limit (h : v.Denotes q) (hfloat : v.IsFloat) : q < limit := by
  obtain ⟨x, rfl⟩ := hfloat
  exact h.of_float.lt_limit

theorem Denotes.exists_integer (h : v.Denotes q) (hfloat : ¬v.IsFloat) :
    ∃ n : ℕ, v.integer? = some (n : ℤ) ∧ q = n := by
  cases h with
  | integer h => exact ⟨_, h, rfl⟩
  | float h => exact absurd ⟨_, rfl⟩ hfloat

/-! ## The smaller of two -/

theorem Denotes.exists_number (h : v.Denotes q) :
    ∃ d, v.number? = some d ∧ d.Denotes q ∧ v.isDecimal = false := by
  cases h with
  | float h => exact ⟨_, rfl, Binary.denotes_ofFloat_iff.mpr h, rfl⟩
  | @integer _ n h =>
    have hnumber : v.number? = some (Decimal.ofInt n) ∧ v.isDecimal = false := by
      cases v with
      | int m => exact ⟨congrArg (Option.map Decimal.ofInt) h, rfl⟩
      | bool b => exact ⟨congrArg (Option.map Decimal.ofInt) h, rfl⟩
      | _ => cases h
    exact ⟨_, hnumber.1, ⟨rfl, (Decimal.value_ofInt n).trans (Int.cast_natCast n), Nat.cast_nonneg n⟩,
      hnumber.2⟩

theorem Denotes.isNumber (h : v.Denotes q) : v.IsNumber := by
  obtain ⟨d, hd, -⟩ := h.exists_number
  exact ⟨d, hd⟩

theorem isLess_of_denotes (ha : a.Denotes p) (hb : b.Denotes q) : isLess a b = .ok (decide (p < q)) := by
  obtain ⟨d, hd, hdenotes, hdecimal⟩ := ha.exists_number
  obtain ⟨e, he, hdenotes', hdecimal'⟩ := hb.exists_number
  have hiff := Decimal.compare?_eq_lt_iff hdenotes hdenotes'
  rw [isLess_of_isNumber ⟨d, hd⟩, orderNumbers, hd, he]
  simp only [hdecimal, hdecimal', Bool.or_false, Bool.false_eq_true, if_false]
  cases hcompare : Decimal.compare? d e with
  | none =>
    have hnot : ¬p < q := fun hlt => by
      have hsome := hiff.mpr hlt
      rw [hcompare] at hsome
      cases hsome
    rw [decide_eq_false hnot]
    rfl
  | some o =>
    rw [hcompare, Option.some.injEq] at hiff
    show Except.ok (some o == some .lt) = _
    refine congrArg Except.ok ?_
    rw [Bool.eq_iff_iff, beq_iff_eq, Option.some.injEq, decide_eq_true_eq]
    exact hiff

theorem isLess_of_isInfinity (ha : a.Denotes p) {x : Float} (hx : Binary.IsInfinity x) :
    isLess a (.float x) = .ok true := by
  obtain ⟨d, hd, hdenotes, -⟩ := ha.exists_number
  have hnumber : (Value.float x).number? = some (.infinite false) :=
    congrArg some (Binary.ofFloat_of_isInfinity hx)
  rw [isLess_of_isNumber ⟨d, hd⟩, orderNumbers, hd, hnumber]
  simp only [Decimal.compare?_infinite hdenotes]
  rfl

theorem exists_smaller (ha : a.Denotes p) (hb : b.Denotes q) :
    ∃ v, a.smaller b = .ok v ∧ v.Denotes (min p q) := by
  have hsmaller : a.smaller b = if q < p then .ok b else .ok a := by
    rw [smaller, isLess_of_denotes hb ha]
    by_cases hlt : q < p
    · rw [if_pos hlt, decide_eq_true hlt]
      rfl
    · rw [if_neg hlt, decide_eq_false hlt]
      rfl
  rw [hsmaller]
  split
  · next hlt => exact ⟨b, rfl, by rwa [min_eq_right hlt.le]⟩
  · next hle => exact ⟨a, rfl, by rwa [min_eq_left (not_lt.mp hle)]⟩

/-- The smaller of a value without a sign and a number is at most the number. -/
theorem exists_smaller_le (ha : a.IsUnsigned) (hb : b.Denotes q) :
    ∃ v r, a.smaller b = .ok v ∧ v.Denotes r ∧ r ≤ q := by
  rcases ha with ⟨p, hp⟩ | ⟨x, rfl, hx⟩
  · obtain ⟨v, hv, hdenotes⟩ := exists_smaller hp hb
    exact ⟨v, _, hv, hdenotes, min_le_right p q⟩
  · refine ⟨b, q, ?_, hb, le_rfl⟩
    rw [smaller, isLess_of_isInfinity hb hx]
    rfl

/-! ## Factors -/

theorem floatOf_of_lt (h : (n : ℚ) < limit) :
    ∃ x q, floatOf n = .ok x ∧ Binary.Denotes x q ∧ (n < 2 ^ 53 → q = n) ∧
      ∀ j : ℕ, 2 ^ j ≤ n → (2 : ℚ) ^ j ≤ q := by
  obtain ⟨x, q, hx, hrest⟩ := Binary.ofInt?_of_lt h
  exact ⟨x, q, by rw [floatOf, hx], hrest⟩

theorem floatOf_of_le (h : limit ≤ n) : floatOf n = .error .overflow := by
  rw [floatOf, Binary.ofInt?_of_le h]

theorem floatFactor_of_integer (h : v.integer? = some (n : ℤ)) : v.floatFactor = floatOf n := by
  cases v with
  | int m => simp only [floatFactor, h]
  | bool b => simp only [floatFactor, h]
  | _ => cases h

theorem exists_floatFactor (h : v.Denotes q) (hlt : q < limit) :
    ∃ x r, v.floatFactor = .ok x ∧ Binary.Denotes x r := by
  cases h with
  | float h => exact ⟨_, _, rfl, h⟩
  | integer h =>
    obtain ⟨x, r, hx, hdenotes, -⟩ := floatOf_of_lt hlt
    exact ⟨x, r, (floatFactor_of_integer h).trans hx, hdenotes⟩

theorem floatFactor_of_le (h : v.Denotes q) (hle : limit ≤ q) : v.floatFactor = .error .overflow := by
  cases h with
  | float h => exact absurd hle (not_le.mpr h.lt_limit)
  | integer h => exact (floatFactor_of_integer h).trans (floatOf_of_le hle)

/-! ## Products -/

theorem times_of_integers {m : ℤ} {k : ℤ} (ha : a.integer? = some m) (hb : b.integer? = some k) :
    a.times b = .ok (.int (m * k)) := by
  cases a with
  | int _ =>
    cases b with
    | int _ => simp only [times, ha, hb]
    | bool _ => simp only [times, ha, hb]
    | _ => cases hb
  | bool _ =>
    cases b with
    | int _ => simp only [times, ha, hb]
    | bool _ => simp only [times, ha, hb]
    | _ => cases hb
  | _ => cases ha

theorem times_of_float (h : a.IsFloat ∨ b.IsFloat) :
    a.times b = do
      let x ← a.floatFactor
      let y ← b.floatFactor
      return .float (x * y) := by
  rcases h with ⟨x, rfl⟩ | ⟨y, rfl⟩
  · rfl
  · cases a <;> rfl

/-- Without floats a product has no bound. -/
theorem exists_times_of_exact (ha : a.Denotes p) (hb : b.Denotes q) (h : ¬(a.IsFloat ∨ b.IsFloat)) :
    ∃ w, a.times b = .ok w ∧ w.IsUnsigned := by
  obtain ⟨hafloat, hbfloat⟩ := not_or.mp h
  obtain ⟨m, hm, -⟩ := ha.exists_integer hafloat
  obtain ⟨k, hk, -⟩ := hb.exists_integer hbfloat
  refine ⟨_, times_of_integers hm hk, .inl ⟨(m * k : ℕ), ?_⟩⟩
  rw [← Int.natCast_mul]
  exact denotes_natural (m * k)

theorem exists_times (ha : a.Denotes p) (hb : b.Denotes q) (hp : p < limit) (hq : q < limit) :
    ∃ w, a.times b = .ok w ∧ w.IsUnsigned := by
  by_cases hfloat : a.IsFloat ∨ b.IsFloat
  · obtain ⟨x, _, hx, hxdenotes⟩ := exists_floatFactor ha hp
    obtain ⟨y, _, hy, hydenotes⟩ := exists_floatFactor hb hq
    rw [times_of_float hfloat, hx, hy]
    refine ⟨.float (x * y), rfl, ?_⟩
    rcases hxdenotes.mul hydenotes with ⟨r, hr⟩ | hinf
    · exact .inl ⟨r, .float hr⟩
    · exact .inr ⟨_, rfl, hinf⟩
  · exact exists_times_of_exact ha hb hfloat

theorem times_of_le (h : a.IsFloat ∨ b.IsFloat) (ha : a.Denotes p) (hb : b.Denotes q)
    (hle : limit ≤ p ∨ limit ≤ q) : a.times b = .error .overflow := by
  rw [times_of_float h]
  rcases lt_or_ge p limit with hp | hp
  · obtain ⟨x, _, hx, -⟩ := exists_floatFactor ha hp
    rw [hx, floatFactor_of_le hb (hle.resolve_left (not_le.mpr hp))]
    rfl
  · rw [floatFactor_of_le ha hp]
    rfl

theorem times_cases (ha : a.Denotes p) (hb : b.Denotes q) :
    (∃ w, a.times b = .ok w ∧ w.IsUnsigned) ∨ a.times b = .error .overflow := by
  by_cases hfloat : a.IsFloat ∨ b.IsFloat
  · by_cases hsmall : p < limit ∧ q < limit
    · exact .inl (exists_times ha hb hsmall.1 hsmall.2)
    · rw [not_and_or, not_lt, not_lt] at hsmall
      exact .inr (times_of_le hfloat ha hb hsmall)
  · exact .inl (exists_times_of_exact ha hb hfloat)

/-! ## Powers -/

theorem power_of_integer {m : ℤ} (h : v.integer? = some m) (n : ℕ) :
    v.power n = .ok (.int (m ^ n)) := by
  cases v with
  | int _ => simp only [power, h, integerPower_eq]
  | bool _ => simp only [power, h, integerPower_eq]
  | _ => cases h

theorem denotes_power {k : ℕ} (h : v.integer? = some (k : ℤ)) (n : ℕ) :
    ∃ w, v.power n = .ok w ∧ w.Denotes ((k : ℚ) ^ n) := by
  refine ⟨_, power_of_integer h n, ?_⟩
  rw [← Nat.cast_pow, ← Nat.cast_pow]
  exact denotes_natural (k ^ n)

variable {x : Float}

/-- The power of a float has the integer part of a float as its exponent. -/
theorem power_float {e : Float} {r : ℚ} (he : floatOf n = .ok e) (hr : Binary.Denotes e r) :
    (Value.float x).power n =
      match Binary.pow? x ⌊r⌋₊ with
      | some y => .ok (.float y)
      | none => .error .overflow := by
  rw [power, he]
  show (match Binary.pow? x ((Binary.truncate? e).getD 0).toNat with
    | some y => Except.ok (Value.float y)
    | none => Except.error Fault.overflow) = _
  rw [hr.truncate?]

theorem lt_limit_of_lt (h : n < 2 ^ 53) : (n : ℚ) < limit := by
  have hsmall : (n : ℚ) < 2 ^ (53 : ℤ) := by exact_mod_cast h
  have hle : (2 : ℚ) ^ (53 : ℤ) ≤ 2 ^ (1023 : ℤ) := Binary.two_pow_le.mpr (by decide)
  exact hsmall.trans (hle.trans_lt Binary.pow_lt_limit)

theorem power_float_of_lt (hn : n < 2 ^ 53) :
    (Value.float x).power n =
      match Binary.pow? x n with
      | some y => .ok (.float y)
      | none => .error .overflow := by
  obtain ⟨e, r, he, hr, hexact, -⟩ := floatOf_of_lt (lt_limit_of_lt hn)
  rw [power_float he hr, hexact hn, Nat.floor_natCast]

theorem power_cases (h : v.Denotes q) (n : ℕ) :
    (∃ w r, v.power n = .ok w ∧ w.Denotes r) ∨ v.power n = .error .overflow := by
  cases h with
  | integer h =>
    obtain ⟨w, hw, hdenotes⟩ := denotes_power h n
    exact .inl ⟨w, _, hw, hdenotes⟩
  | float h =>
    rcases lt_or_ge (n : ℚ) limit with hlt | hle
    · obtain ⟨e, r, he, hr, -⟩ := floatOf_of_lt hlt
      rw [power_float he hr]
      rcases Binary.pow?_cases h ⌊r⌋₊ with hnone | ⟨y, s, hy, hs⟩
      · rw [hnone]
        exact .inr rfl
      · rw [hy]
        exact .inl ⟨_, s, rfl, .float hs⟩
    · right
      rw [power, floatOf_of_le hle]
      rfl

/-- Below the limit there is a power. -/
theorem exists_power (h : v.Denotes q) (hn : n < 2 ^ 53) (hlt : q ^ n < limit) :
    ∃ w r, v.power n = .ok w ∧ w.Denotes r ∧ r < limit := by
  cases h with
  | integer h =>
    obtain ⟨w, hw, hdenotes⟩ := denotes_power h n
    exact ⟨w, _, hw, hdenotes, hlt⟩
  | float h =>
    obtain ⟨y, r, hy, hr⟩ := Binary.pow?_of_lt h hlt
    exact ⟨.float y, r, by rw [power_float_of_lt hn, hy], .float hr, hr.lt_limit⟩

theorem isFloat_of_power {w : Value} (h : v.IsFloat) (hw : v.power n = .ok w) : w.IsFloat := by
  obtain ⟨x, rfl⟩ := h
  obtain ⟨e, -, hpow⟩ := bind_eq_ok.mp hw
  split at hpow
  · exact ⟨_, (Except.ok.inj hpow).symm⟩
  · cases hpow

/-- Where a power of a float leaves the format, there is none. -/
theorem power_of_le (h : v.Denotes q) (hfloat : v.IsFloat)
    (hle : n ≤ 1100 ∧ limit ≤ q ^ n ∨ 1024 ≤ n ∧ 2 ≤ q) : v.power n = .error .overflow := by
  obtain ⟨x, rfl⟩ := hfloat
  have hx := h.of_float
  rcases hle with ⟨hn, hle⟩ | ⟨hn, hq⟩
  · rw [power_float_of_lt (by omega), Binary.pow?_of_le hx hn hle]
  · rcases lt_or_ge (n : ℚ) limit with hlt | hlarge
    · obtain ⟨e, r, he, hr, -, hpow⟩ := floatOf_of_lt hlt
      have hfloor : 1024 ≤ ⌊r⌋₊ := Nat.le_floor (by exact_mod_cast hpow 10 hn)
      rw [power_float he hr, Binary.pow?_of_two_le hx hq hfloor]
    · rw [power, floatOf_of_le hlarge]
      rfl

end LedgerClient.Value
