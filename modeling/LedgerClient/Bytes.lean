import LedgerClient.Number.Power

/-!
# Byte strings

A byte string is a list of bytes. Hexadecimal text is written in lower case, two digits a
byte, and read in either case. A number has a big-endian form of a fixed width and a minimal
one without leading zero bytes, in which zero is the empty string.
-/

namespace LedgerClient

abbrev Bytes := List UInt8

namespace Bytes

def hexDigit (n : Nat) : Char := if n < 10 then Char.ofNat (48 + n) else Char.ofNat (87 + n)

def hexValue? (c : Char) : Option Nat :=
  let n := c.toNat
  if 48 ≤ n ∧ n ≤ 57 then some (n - 48)
  else if 97 ≤ n ∧ n ≤ 102 then some (n - 87)
  else if 65 ≤ n ∧ n ≤ 70 then some (n - 55)
  else none

theorem hexValue?_hexDigit {n : Nat} (h : n < 16) : hexValue? (hexDigit n) = some n := by
  revert n; decide

theorem hexValue?_lt {c : Char} {n : Nat} (h : hexValue? c = some n) : n < 16 := by
  simp only [hexValue?] at h
  split at h
  · simp only [Option.some.injEq] at h; omega
  · split at h
    · simp only [Option.some.injEq] at h; omega
    · split at h
      · simp only [Option.some.injEq] at h; omega
      · simp at h

def isHexDigit (c : Char) : Bool := (hexValue? c).isSome

def toHexChars : Bytes → List Char
  | [] => []
  | b :: rest => hexDigit (b.toNat / 16) :: hexDigit (b.toNat % 16) :: toHexChars rest

def toHex (bs : Bytes) : String := String.ofList bs.toHexChars

/-- Reads pairs of digits and nothing else. -/
def ofHexChars : List Char → Option Bytes
  | [] => some []
  | [_] => none
  | high :: low :: rest => do
    let h ← hexValue? high
    let l ← hexValue? low
    let tail ← ofHexChars rest
    return UInt8.ofNat (16 * h + l) :: tail

theorem ofHexChars_toHexChars (bs : Bytes) : ofHexChars bs.toHexChars = some bs := by
  induction bs with
  | nil => rfl
  | cons b rest ih =>
    have hb : b.toNat < 256 := b.toNat_lt
    have hd : 16 * (b.toNat / 16) + b.toNat % 16 = b.toNat := by omega
    simp only [toHexChars, ofHexChars, ih, hexValue?_hexDigit (show b.toNat / 16 < 16 by omega),
      hexValue?_hexDigit (show b.toNat % 16 < 16 by omega), hd, UInt8.ofNat_toNat,
      Option.bind_eq_bind, Option.bind_some, Option.pure_def]

theorem toHexChars_length (bs : Bytes) : bs.toHexChars.length = 2 * bs.length := by
  induction bs with
  | nil => rfl
  | cons b rest ih => simp only [toHexChars, List.length_cons, ih]; omega

def ofHex? (s : String) : Option Bytes := ofHexChars s.toList

/-- A pair of digits may be surrounded by blanks, which are skipped. -/
def ofSpacedHexChars (blank : Char → Bool) : List Char → Option Bytes
  | [] => some []
  | high :: rest =>
    if blank high then ofSpacedHexChars blank rest
    else match rest with
      | [] => none
      | low :: rest' => do
        let h ← hexValue? high
        let l ← hexValue? low
        let tail ← ofSpacedHexChars blank rest'
        return UInt8.ofNat (16 * h + l) :: tail

def toNat (bs : Bytes) : Nat := bs.foldl (fun n b => 256 * n + b.toNat) 0

/-- The last `width` bytes of a number, most significant first. -/
def ofNat : Nat → Nat → Bytes
  | 0, _ => []
  | width + 1, n => ofNat width (n / 256) ++ [UInt8.ofNat n]

theorem ofNat_length (width n : Nat) : (ofNat width n).length = width := by
  induction width generalizing n with
  | zero => rfl
  | succ w ih => simp [ofNat, ih]

theorem toNat_append_singleton (bs : Bytes) (b : UInt8) :
    toNat (bs ++ [b]) = 256 * toNat bs + b.toNat := by
  simp [toNat, List.foldl_append]

theorem toNat_ofNat {width n : Nat} (h : n < 256 ^ width) : toNat (ofNat width n) = n := by
  induction width generalizing n with
  | zero => simp at h; simp [ofNat, toNat, h]
  | succ w ih =>
    have hq : n / 256 < 256 ^ w := by
      rw [Nat.pow_succ] at h
      exact Nat.div_lt_of_lt_mul (by omega)
    rw [ofNat, toNat_append_singleton, ih hq]
    have : (UInt8.ofNat n).toNat = n % 256 := by simp
    omega

/-- The shortest big-endian form; zero has no bytes. -/
def minimal (n : Nat) : Bytes :=
  if n = 0 then [] else minimal (n / 256) ++ [UInt8.ofNat n]
termination_by n

theorem minimal_zero : minimal 0 = [] := by rw [minimal]; simp

theorem minimal_of_pos {n : Nat} (h : 0 < n) : minimal n = minimal (n / 256) ++ [UInt8.ofNat n] := by
  rw [minimal]; simp [Nat.ne_of_gt h]

theorem toNat_minimal (n : Nat) : toNat (minimal n) = n := by
  induction n using Nat.strongRecOn with
  | _ n ih =>
    by_cases h : n = 0
    · subst h; rw [minimal_zero]; rfl
    · rw [minimal_of_pos (Nat.pos_of_ne_zero h), toNat_append_singleton, ih _ (by omega)]
      have : (UInt8.ofNat n).toNat = n % 256 := by simp
      omega

/-- The byte string of `width` zero bytes. -/
def zeros (width : Nat) : Bytes := List.replicate width 0

theorem zeros_length (width : Nat) : (zeros width).length = width := by simp [zeros]

end Bytes

end LedgerClient
