import LedgerClient.Bytes
import Mathlib.Data.List.Induction

/-!
# Minimal big-endian numbers

A number of bytes is below the power of 256 that its length gives. The minimal form of a number has
no leading zero, and a byte string without a leading zero is the minimal form of the number that it
denotes: on such strings reading and writing are inverse.
-/

namespace LedgerClient.Bytes

theorem toNat_byte {n : Nat} (h : n < 256) : (UInt8.ofNat n).toNat = n :=
  UInt8.toNat_ofNat_of_lt' h

theorem toNat_lt (bs : Bytes) : toNat bs < 256 ^ bs.length := by
  induction bs using List.reverseRecOn with
  | nil => decide
  | append_singleton bs b ih =>
    have hb : b.toNat < 256 := b.toNat_lt
    rw [toNat_append_singleton, List.length_append, List.length_singleton, Nat.pow_succ]
    omega

/-! The last byte of a number is its remainder, and the bytes before it are the quotient. -/

theorem snoc_div (n : Nat) (b : UInt8) : (256 * n + b.toNat) / 256 = n := by
  have hb : b.toNat < 256 := b.toNat_lt
  omega

theorem ofNat_snoc (n : Nat) (b : UInt8) : UInt8.ofNat (256 * n + b.toNat) = b := by
  have hb : b.toNat < 256 := b.toNat_lt
  apply UInt8.toNat_inj.mp
  rw [UInt8.toNat_ofNat']
  omega

theorem ofNat_toNat (bs : Bytes) : ofNat bs.length (toNat bs) = bs := by
  induction bs using List.reverseRecOn with
  | nil => rfl
  | append_singleton bs b ih =>
    rw [toNat_append_singleton, List.length_append, List.length_singleton, ofNat, snoc_div,
      ofNat_snoc, ih]

theorem minimal_injective {m n : Nat} (h : minimal m = minimal n) : m = n := by
  rw [← toNat_minimal m, h, toNat_minimal]

theorem minimal_ne_nil {n : Nat} (h : 0 < n) : minimal n ≠ [] := by
  rw [minimal_of_pos h]
  simp

theorem length_minimal_le {k n : Nat} (h : n < 256 ^ k) : (minimal n).length ≤ k := by
  induction k generalizing n with
  | zero =>
    have hn : n = 0 := by omega
    rw [hn, minimal_zero]
    exact Nat.le_refl 0
  | succ k ih =>
    rcases Nat.eq_zero_or_pos n with hn | hn
    · rw [hn, minimal_zero]
      exact Nat.zero_le _
    · have hq : n / 256 < 256 ^ k := by
        rw [Nat.pow_succ] at h
        omega
      rw [minimal_of_pos hn, List.length_append, List.length_singleton]
      exact Nat.succ_le_succ (ih hq)

/-- The minimal form has no leading zero; the empty string has no first byte at all. -/
theorem headD_minimal (n : Nat) : (minimal n).headD 1 ≠ 0 := by
  induction n using Nat.strongRecOn with
  | _ n ih =>
    rcases Nat.eq_zero_or_pos n with hn | hn
    · rw [hn, minimal_zero]
      decide
    · rw [minimal_of_pos hn]
      rcases Nat.eq_zero_or_pos (n / 256) with hq | hq
      · have hlt : n < 256 := by omega
        rw [hq, minimal_zero, List.nil_append, List.headD_cons]
        intro h
        have hz : (UInt8.ofNat n).toNat = 0 := by rw [h]; rfl
        rw [toNat_byte hlt] at hz
        omega
      · have hq' := ih (n / 256) (by omega)
        cases hm : minimal (n / 256) with
        | nil => exact absurd hm (minimal_ne_nil hq)
        | cons b rest =>
          rw [hm] at hq'
          exact hq'

/-- A string without a leading zero is the minimal form of its number. -/
theorem minimal_toNat {bs : Bytes} (h : bs.headD 1 ≠ 0) : minimal (toNat bs) = bs := by
  induction bs using List.reverseRecOn with
  | nil => exact minimal_zero
  | append_singleton bs b ih =>
    cases bs with
    | nil =>
      have hpos : 0 < b.toNat := by
        rcases Nat.eq_zero_or_pos b.toNat with hz | hz
        · exact absurd (UInt8.toNat_inj.mp hz) h
        · exact hz
      rw [toNat_append_singleton, minimal_of_pos (by omega), snoc_div, ofNat_snoc]
      exact congrArg (· ++ [b]) minimal_zero
    | cons c rest =>
      have hc : minimal (toNat (c :: rest)) = c :: rest := ih h
      have hpos : 0 < toNat (c :: rest) := by
        rcases Nat.eq_zero_or_pos (toNat (c :: rest)) with hz | hz
        · rw [hz, minimal_zero] at hc
          cases hc
        · exact hz
      rw [toNat_append_singleton, minimal_of_pos (by omega), snoc_div, ofNat_snoc, hc]

end LedgerClient.Bytes
