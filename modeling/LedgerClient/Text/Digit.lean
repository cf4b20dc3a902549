import LedgerClient.Text.Ranges

/-!
# Decimal digits

Every script's digits stand in a run of ten that begins with its zero. `digit?` reads a digit
of any script, `asciiDigit?` only `0` to `9`.
-/

namespace LedgerClient.Text

/-- The zeros of Unicode 14 in increasing order. -/
def digitZeros : List Nat := [
  48, 1632, 1776, 1984, 2406, 2534, 2662, 2790, 2918, 3046, 3174, 3302, 3430, 3558, 3664, 3792,
  3872, 4160, 4240, 6112, 6160, 6470, 6608, 6784, 6800, 6992, 7088, 7232, 7248, 42528, 43216,
  43264, 43472, 43504, 43600, 44016, 65296, 66720, 68912, 69734, 69872, 69942, 70096, 70384,
  70736, 70864, 71248, 71360, 71472, 71904, 72016, 72784, 73040, 73120, 92768, 92864, 93008,
  120782, 120792, 120802, 120812, 120822, 123200, 123632, 125264, 130032]

def digitFrom (n : Nat) : List Nat → Option Nat
  | [] => none
  | start :: rest =>
    if n < start then none else if n < start + 10 then some (n - start) else digitFrom n rest

theorem digitFrom_lt {n d : Nat} {zeros : List Nat} (h : digitFrom n zeros = some d) : d < 10 := by
  induction zeros with
  | nil => simp [digitFrom] at h
  | cons z zs ih =>
    simp only [digitFrom] at h
    split at h
    · simp at h
    · split at h
      · simp only [Option.some.injEq] at h; omega
      · exact ih h

def digit? (c : Char) : Option Nat := digitFrom c.toNat digitZeros

theorem digit?_lt {c : Char} {d : Nat} (h : digit? c = some d) : d < 10 := digitFrom_lt h

def asciiDigit? (c : Char) : Option Nat :=
  if '0'.toNat ≤ c.toNat ∧ c.toNat ≤ '9'.toNat then some (c.toNat - '0'.toNat) else none

theorem asciiDigit?_lt {c : Char} {d : Nat} (h : asciiDigit? c = some d) : d < 10 := by
  simp only [asciiDigit?] at h
  split at h
  · next hc =>
    have : '0'.toNat = 48 := rfl
    have : '9'.toNat = 57 := rfl
    simp only [Option.some.injEq] at h
    omega
  · simp at h

end LedgerClient.Text
