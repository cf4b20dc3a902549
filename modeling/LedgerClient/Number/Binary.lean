import LedgerClient.Number.Integer

/-!
# Binary floating-point numbers as exact values

A finite number is a natural number times a power of two with a sign. `ofRatio` rounds a
quotient to the nearest number, a tie to the even neighbour; integers, decimal numerals and
powers are converted through it. A number too large for the format becomes infinite.
-/

namespace LedgerClient.Binary

/-- The value of a float: `negative`, `mantissa · 2 ^ exponent`. -/
structure Exact where
  negative : Bool
  mantissa : Nat
  exponent : Int

def isNegative (x : Float) : Bool := decide (2 ^ 63 ≤ x.toBits.toNat)

def exponentField (x : Float) : Nat := x.toBits.toNat / 2 ^ 52 % 2048

def fractionField (x : Float) : Nat := x.toBits.toNat % 2 ^ 52

def isFinite (x : Float) : Bool := exponentField x != 2047

def isNaN (x : Float) : Bool := exponentField x == 2047 && fractionField x != 0

def isInfinite (x : Float) : Bool := exponentField x == 2047 && fractionField x == 0

/-- Meaningful for a finite number. -/
def exact (x : Float) : Exact :=
  if exponentField x = 0 then ⟨isNegative x, fractionField x, -1074⟩
  else ⟨isNegative x, 2 ^ 52 + fractionField x, (exponentField x : Int) - 1075⟩

def ofFields (negative : Bool) (magnitude : Nat) : Float :=
  Float.ofBits (UInt64.ofNat ((if negative then 2 ^ 63 else 0) + magnitude))

def infinity (negative : Bool) : Float := ofFields negative (2047 * 2 ^ 52)

def notANumber : Float := ofFields false (2047 * 2 ^ 52 + 2 ^ 51)

def signedZero (negative : Bool) : Float := ofFields negative 0

/-- The natural number nearest to a quotient, a tie going to the even one. -/
def roundDiv (num den : Nat) : Nat :=
  let quotient := num / den
  let rest := num % den
  if 2 * rest < den then quotient
  else if den < 2 * rest then quotient + 1
  else if quotient % 2 = 0 then quotient else quotient + 1

theorem roundDiv_one (n : Nat) : roundDiv n 1 = n := by
  simp [roundDiv, Nat.mod_one]

/-- `num / den` in units of `2 ^ exponent`, rounded. -/
def roundAt (num den : Nat) (exponent : Int) : Nat :=
  roundDiv (num * 2 ^ (-exponent).toNat) (den * 2 ^ exponent.toNat)

/-- `2 ^ k ≤ num / den`. -/
def reaches (num den : Nat) (k : Int) : Bool :=
  decide (den * 2 ^ k.toNat ≤ num * 2 ^ (-k).toNat)

/-- The exponent at which a quotient has 53 significant bits, not below that of the subnormal
numbers. -/
def unitExponent (num den : Nat) : Int :=
  let guess : Int := (num.log2 : Int) - den.log2
  max (-1074) ((if reaches num den guess then guess else guess - 1) - 52)

/-- The encoding is monotone, so a mantissa rounded up to `2 ^ 53` carries into the exponent. -/
def ofRatio (negative : Bool) (num den : Nat) : Float :=
  if num = 0 then signedZero negative
  else
    let unit := unitExponent num den
    let magnitude := (unit + 1074).toNat * 2 ^ 52 + roundAt num den unit
    if magnitude < 2047 * 2 ^ 52 then ofFields negative magnitude else infinity negative

theorem ofRatio_zero (negative : Bool) (den : Nat) : ofRatio negative 0 den = signedZero negative := by
  simp [ofRatio]

/-- `none` when the integer is beyond the largest finite number. -/
def ofInt? (n : Int) : Option Float :=
  let x := ofRatio (decide (n < 0)) n.natAbs 1
  if isFinite x then some x else none

/-- A decimal numeral. Exponents far outside the range of the format are settled by the number of
digits. -/
def ofDecimal (negative : Bool) (mantissa : Nat) (exponent : Int) : Float :=
  let scale := exponent + (Nat.toDigits 10 mantissa).length
  if mantissa = 0 then signedZero negative
  else if 400 < scale then infinity negative
  else if scale < -400 then signedZero negative
  else ofRatio negative (mantissa * 10 ^ exponent.toNat) (10 ^ (-exponent).toNat)

/-- The integer part, the sign kept; `none` for infinities and for what is no number. -/
def truncate? (x : Float) : Option Int :=
  if isFinite x then
    let v := exact x
    let n : Nat := v.mantissa * 2 ^ v.exponent.toNat / 2 ^ (-v.exponent).toNat
    some (if v.negative then -(n : Int) else n)
  else none

/-- The numerator and the denominator of a finite number. -/
def Exact.ratio (v : Exact) : Int × Nat :=
  let num : Int := v.mantissa * 2 ^ v.exponent.toNat
  (if v.negative then -num else num, 2 ^ (-v.exponent).toNat)

/-- Compares a number with an integer exactly; `none` when it is no number. -/
def compareInt? (x : Float) (n : Int) : Option Ordering :=
  if isNaN x then none
  else if isInfinite x then some (if isNegative x then .lt else .gt)
  else
    let (num, den) := (exact x).ratio
    some (compare num (n * den))

/-- A float with the value of an integer, and nothing else, equals it. -/
def eqInt (x : Float) (n : Int) : Bool := compareInt? x n == some .eq

/-! ## Powers -/

/-- As many leading binary digits of a mantissa as a power is computed with. -/
def cut (m : Nat) (e : Int) : Nat × Int :=
  let extra := m.log2 - 255
  (m / 2 ^ extra, e + extra)

/-- The leading digits of `(m · 2 ^ e) ^ n` by squaring along the binary digits of `n`. -/
def leadingPower (m : Nat) (e : Int) (n : Nat) : Nat × Int :=
  (List.range (n.log2 + 1)).reverse.foldl
    (fun (p, f) k =>
      let (p, f) := cut (p * p) (2 * f)
      if n.testBit k then cut (p * m) (f + e) else (p, f))
    (1, 0)

/-- `(m · 2 ^ e) ^ n`, all of its digits up to the power of 1100 and the leading ones beyond. -/
def powerDigits (m : Nat) (e : Int) (n : Nat) : Nat × Int :=
  if n ≤ 1100 then (m ^ n, e * n) else leadingPower m e n

/-- A natural power, rounded once; `none` when a finite base gives no finite power. -/
def pow? (x : Float) (n : Nat) : Option Float :=
  let odd := n % 2 = 1
  if n = 0 then some (ofRatio false 1 1)
  else if isNaN x then some x
  else if isInfinite x then some (infinity (isNegative x && odd))
  else
    let v := exact x
    let negative := v.negative && odd
    if v.mantissa = 0 then some (signedZero negative)
    else
      let (m, e) := powerDigits v.mantissa v.exponent n
      let size : Int := (m.log2 : Int) + e
      if 1100 < size then none
      else if size < -1100 then some (signedZero negative)
      else
        let power := ofRatio negative (m * 2 ^ e.toNat) (2 ^ (-e).toNat)
        if isFinite power then some power else none

theorem powerDigits_of_le {n : Nat} (m : Nat) (e : Int) (h : n ≤ 1100) :
    powerDigits m e n = (m ^ n, e * n) := by
  simp [powerDigits, h]

end LedgerClient.Binary
