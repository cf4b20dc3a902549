import LedgerClient.Proofs.Retry
import LedgerClient.Proofs.Value.Unsigned

/-!
# Delays up to a cap

A delay is a product with a power, and the cap is put on the product. So a delay is at most the cap wherever
the power and the factors are numbers of the format. Beyond the format the computation overflows before the
cap comes into it, unless no float takes part.
-/

namespace LedgerClient.RetryConfig

open Binary (limit)

/-- The settings of the delays are numbers that are not negative. -/
structure Denotes (c : RetryConfig) (initial growth cap : ℚ) : Prop where
  initialDelay : c.initialDelay.Denotes initial
  multiplier : c.multiplier.Denotes growth
  maxDelay : c.maxDelay.Denotes cap

/-- A float takes part in what the cap is put on. -/
def UsesFloat (c : RetryConfig) : Prop := c.initialDelay.IsFloat ∨ c.multiplier.IsFloat

/-- The delay before an attempt is a number from zero to the cap. -/
def IsCapped (c : RetryConfig) (cap : ℚ) (attempt : ℤ) : Prop :=
  ∃ wait y, c.delay attempt = .ok wait ∧ wait.Denotes y ∧ 0 ≤ y ∧ y ≤ cap

/-- A number beyond the format occurs in the computation of a delay. -/
def IsLarge (initial growth : ℚ) (n : ℕ) : Prop :=
  limit ≤ initial ∨ n ≤ 1100 ∧ limit ≤ growth ^ n ∨ 1024 ≤ n ∧ 2 ≤ growth

variable {c : RetryConfig} {initial growth cap : ℚ} {n : ℕ} {power wait : Value}

theorem delay_of_nonpos (c : RetryConfig) {attempt : ℤ} (h : attempt ≤ 0) :
    c.delay attempt = .ok (.float 0.0) := if_pos h

theorem delay_succ (c : RetryConfig) (n : ℕ) :
    c.delay (n + 1) = c.multiplier.power n >>= fun power =>
      c.initialDelay.times power >>= fun wait => wait.smaller c.maxDelay := by
  have hpos : ¬(n + 1 : ℤ) ≤ 0 := by omega
  have hexponent : ((n : ℤ) + 1 - 1).toNat = n := by omega
  rw [delay, if_neg hpos, hexponent]

theorem delay_of_times (hpower : c.multiplier.power n = .ok power)
    (htimes : c.initialDelay.times power = .ok wait) : c.delay (n + 1) = wait.smaller c.maxDelay := by
  rw [delay_succ, hpower]
  show c.initialDelay.times power >>= _ = _
  rw [htimes]
  rfl

theorem overflows_of_power (h : c.multiplier.power n = .error .overflow) :
    c.delay (n + 1) = .error .overflow := by
  rw [delay_succ, h]
  rfl

theorem overflows_of_times (hpower : c.multiplier.power n = .ok power)
    (htimes : c.initialDelay.times power = .error .overflow) : c.delay (n + 1) = .error .overflow := by
  rw [delay_succ, hpower]
  show c.initialDelay.times power >>= _ = _
  rw [htimes]
  rfl

theorem denotes_zero : Binary.Denotes 0.0 0 := by
  have hmantissa : (Binary.exact 0.0).mantissa = 0 := by decide +kernel
  refine ⟨by decide +kernel, fun h => absurd hmantissa h, ?_⟩
  rw [hmantissa, Nat.cast_zero, zero_mul]

namespace Denotes

variable (h : c.Denotes initial growth cap)

include h

theorem isCapped_of_nonpos {attempt : ℤ} (hattempt : attempt ≤ 0) : c.IsCapped cap attempt :=
  ⟨_, 0, c.delay_of_nonpos hattempt, .float denotes_zero, le_rfl, h.maxDelay.nonneg⟩

/-- A product that has been computed is capped. -/
theorem isCapped_of_times (hpower : c.multiplier.power n = .ok power)
    (htimes : c.initialDelay.times power = .ok wait) (hunsigned : wait.IsUnsigned) :
    c.IsCapped cap (n + 1) := by
  obtain ⟨v, y, hv, hdenotes, hle⟩ := Value.exists_smaller_le hunsigned h.maxDelay
  exact ⟨v, y, (delay_of_times hpower htimes).trans hv, hdenotes, hdenotes.nonneg, hle⟩

/-- Below the limit of the format every delay is capped. -/
theorem isCapped_of_lt (hn : n < 2 ^ 53) (hinitial : initial < limit) (hgrowth : growth ^ n < limit) :
    c.IsCapped cap (n + 1) := by
  obtain ⟨power, r, hpower, hdenotes, hlt⟩ := Value.exists_power h.multiplier hn hgrowth
  obtain ⟨wait, htimes, hunsigned⟩ := Value.exists_times h.initialDelay hdenotes hinitial hlt
  exact h.isCapped_of_times hpower htimes hunsigned

/-- Without floats the delay is exactly the smaller one of the product and the cap. -/
theorem exists_delay_of_exact (hexact : ¬c.UsesFloat) (n : ℕ) :
    ∃ wait, c.delay (n + 1) = .ok wait ∧ wait.Denotes (min (initial * growth ^ n) cap) := by
  obtain ⟨hinitial, hmultiplier⟩ := not_or.mp hexact
  obtain ⟨i, hi, rfl⟩ := h.initialDelay.exists_integer hinitial
  obtain ⟨k, hk, rfl⟩ := h.multiplier.exists_integer hmultiplier
  have hproduct : Value.Denotes (.int (i * k ^ n)) (i * k ^ n) := by
    have hnatural := Value.denotes_natural (i * k ^ n)
    push_cast at hnatural
    exact hnatural
  obtain ⟨wait, hwait, hdenotes⟩ := Value.exists_smaller hproduct h.maxDelay
  refine ⟨wait, ?_, hdenotes⟩
  rw [delay_of_times (Value.power_of_integer hk n) (Value.times_of_integers hi rfl)]
  exact hwait

theorem capped_or_overflows (attempt : ℤ) :
    c.IsCapped cap attempt ∨ c.delay attempt = .error .overflow := by
  rcases le_or_gt attempt 0 with hattempt | hattempt
  · exact .inl (h.isCapped_of_nonpos hattempt)
  · obtain ⟨n, rfl⟩ : ∃ n : ℕ, attempt = n + 1 := ⟨(attempt - 1).toNat, by omega⟩
    rcases Value.power_cases h.multiplier n with ⟨power, r, hpower, hr⟩ | hpower
    · rcases Value.times_cases h.initialDelay hr with ⟨wait, htimes, hunsigned⟩ | htimes
      · exact .inl (h.isCapped_of_times hpower htimes hunsigned)
      · exact .inr (overflows_of_times hpower htimes)
    · exact .inr (overflows_of_power hpower)

theorem overflows_of_initial (hfloat : c.UsesFloat) (hle : limit ≤ initial) :
    c.delay (n + 1) = .error .overflow := by
  have hmultiplier : c.multiplier.IsFloat :=
    hfloat.resolve_left fun hinitial => absurd hle (not_le.mpr (h.initialDelay.lt_limit hinitial))
  rcases Value.power_cases h.multiplier n with ⟨power, r, hpower, hr⟩ | hpower
  · have hpowerFloat := Value.isFloat_of_power hmultiplier hpower
    exact overflows_of_times hpower (Value.times_of_le (.inr hpowerFloat) h.initialDelay hr (.inl hle))
  · exact overflows_of_power hpower

theorem overflows_of_growth (hfloat : c.UsesFloat)
    (hlarge : n ≤ 1100 ∧ limit ≤ growth ^ n ∨ 1024 ≤ n ∧ 2 ≤ growth) :
    c.delay (n + 1) = .error .overflow := by
  by_cases hmultiplier : c.multiplier.IsFloat
  · exact overflows_of_power (Value.power_of_le h.multiplier hmultiplier hlarge)
  · obtain ⟨k, hk, rfl⟩ := h.multiplier.exists_integer hmultiplier
    obtain ⟨power, hpower, hr⟩ := Value.denotes_power hk n
    have hle : limit ≤ (k : ℚ) ^ n := by
      rcases hlarge with ⟨-, hle⟩ | ⟨hn, hk⟩
      · exact hle
      · exact Binary.limit_le_pow hk hn
    exact overflows_of_times hpower
      (Value.times_of_le (.inl (hfloat.resolve_right hmultiplier)) h.initialDelay hr (.inr hle))

/-- Where a float takes part, a number beyond the format is not capped. -/
theorem overflows (hfloat : c.UsesFloat) (hlarge : IsLarge initial growth n) :
    c.delay (n + 1) = .error .overflow :=
  hlarge.elim (h.overflows_of_initial hfloat) (h.overflows_of_growth hfloat)

end Denotes

end LedgerClient.RetryConfig
