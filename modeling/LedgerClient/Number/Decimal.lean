import LedgerClient.Number.Binary
import LedgerClient.Number.Floating

/-!
# Decimal numbers

A finite decimal keeps the digits it was written with: a coefficient and a power of ten. Its
text is positional for moderate exponents and scientific otherwise. Scaling moves the exponent
and then fits the result to a format: 160 digits, the half-way case going to the even digit,
exponents between two limits, and gradual loss of digits below the lower one.
-/

namespace LedgerClient

inductive Decimal where
  | finite (negative : Bool) (coefficient : Nat) (exponent : Int)
  | infinite (negative : Bool)
  | nan (negative signaling : Bool) (payload : Nat)
  deriving DecidableEq, Repr, Inhabited

namespace Decimal

def ofInt (n : Int) : Decimal := .finite (decide (n < 0)) n.natAbs 0

def isFinite : Decimal → Bool
  | .finite .. => true
  | _ => false

def isZero : Decimal → Bool
  | .finite _ 0 _ => true
  | _ => false

def digitCount (n : Nat) : Nat := (Nat.toDigits 10 n).length

/-- The power of ten of the first digit. -/
def adjusted (coefficient : Nat) (exponent : Int) : Int :=
  exponent + digitCount coefficient - 1

def signText (negative : Bool) : String := if negative then "-" else ""

/-- Positional text ends where six zeros would stand between the point and the digits, and where
the exponent is positive. -/
def magnitudeChars (coefficient : Nat) (exponent : Int) : List Char :=
  let digits := Nat.toDigits 10 coefficient
  let point : Int := digits.length + exponent
  if exponent ≤ 0 ∧ -6 < point then
    if exponent = 0 then digits
    else if point ≤ 0 then '0' :: '.' :: List.replicate (-point).toNat '0' ++ digits
    else digits.take point.toNat ++ '.' :: digits.drop point.toNat
  else
    let tail := digits.drop 1
    let power := point - 1
    digits.take 1 ++ (if tail.isEmpty then [] else '.' :: tail) ++
      'E' :: (if power < 0 then '-' else '+') :: Nat.toDigits 10 power.natAbs

def text : Decimal → String
  | .finite negative coefficient exponent =>
    signText negative ++ String.ofList (magnitudeChars coefficient exponent)
  | .infinite negative => signText negative ++ "Infinity"
  | .nan negative signaling payload =>
    signText negative ++ (if signaling then "sNaN" else "NaN") ++
      (if payload = 0 then "" else String.ofList (Nat.toDigits 10 payload))

theorem text_infinite : text (.infinite true) = "-Infinity" := by decide

/-! ## Reading -/

/-- The bounds of what can be held at all. -/
def maxExponent : Int := 999999999999999999

def minExponent : Int := -1999999999999999997

def finite? (negative : Bool) (coefficient : Nat) (exponent : Int) : Option Decimal :=
  let top := if coefficient = 0 then exponent else adjusted coefficient exponent
  if top ≤ maxExponent ∧ minExponent ≤ exponent then some (.finite negative coefficient exponent)
  else none

/-- Digits of any script become ASCII and wide blanks plain; another character beyond ASCII makes
the text unreadable. -/
def plainChar (c : Char) : Option Char :=
  if c.toNat < 128 then some c
  else if Text.isWideBlank c then some ' '
  else (Text.digit? c).map fun d => Char.ofNat (48 + d)

def readNaN (negative signaling : Bool) (digits : List Char) : Option Decimal :=
  if digits.all Floating.isDigit then some (.nan negative signaling (Floating.digitsValue digits))
  else none

/-- The words are compared in lower case. -/
def readWord (negative : Bool) (s : List Char) : Option Decimal :=
  let word := Text.lowerChars s
  if word = "inf".toList || word = "infinity".toList then some (.infinite negative)
  else if "nan".toList.isPrefixOf word then readNaN negative false (word.drop 3)
  else if "snan".toList.isPrefixOf word then readNaN negative true (word.drop 4)
  else none

/-- Underscores are ignored everywhere. -/
def read? (s : String) : Option Decimal := do
  let plain ← ((Text.trimChars s.toList).filter (· ≠ '_')).mapM plainChar
  let (negative, body) := Floating.splitSign plain
  match Floating.readUnsigned body with
  | some n => finite? negative n.mantissa n.exponent
  | none => readWord negative body

/-! ## Arithmetic -/

/-- Why an operation has no result. -/
inductive Signal where
  | invalidOperation
  | overflow
  deriving DecidableEq, Repr

structure Format where
  precision : Nat
  maxPower : Int
  minPower : Int

/-- Enough digits for every 256-bit amount at every scale in use. -/
def Format.units : Format := ⟨160, 999999, -999999⟩

/-- The exponent of the least subnormal number. -/
def Format.tiny (f : Format) : Int := f.minPower - (f.precision - 1)

/-- Drops `count` digits, the half-way case going to the even digit. -/
def dropDigits (coefficient count : Nat) : Nat :=
  if digitCount coefficient < count then 0 else Binary.roundDiv coefficient (10 ^ count)

def roundToPrecision (f : Format) (coefficient : Nat) (exponent : Int) : Nat × Int :=
  let excess := digitCount coefficient - f.precision
  if excess = 0 then (coefficient, exponent)
  else
    let kept := dropDigits coefficient excess
    if f.precision < digitCount kept then (kept / 10, exponent + excess + 1)
    else (kept, exponent + excess)

/-- Fits a coefficient and an exponent to a format. -/
def Format.fit (f : Format) (negative : Bool) (coefficient : Nat) (exponent : Int) :
    Except Signal Decimal :=
  if coefficient = 0 then
    .ok (.finite negative 0 (min f.maxPower (max f.tiny exponent)))
  else if f.maxPower < adjusted coefficient exponent then .error .overflow
  else
    let (c, e) :=
      if adjusted coefficient exponent < f.minPower ∧ exponent < f.tiny then
        (dropDigits coefficient (f.tiny - exponent).toNat, f.tiny)
      else (coefficient, exponent)
    let (c, e) := roundToPrecision f c e
    if f.maxPower < adjusted c e then .error .overflow else .ok (.finite negative c e)

def reaches (f : Format) (power : Int) : Bool := decide (power.natAbs ≤ 2 * (f.maxPower + f.precision))

/-- Multiplies by a power of ten within a format. -/
def scale (f : Format) (d : Decimal) (power : Int) : Except Signal Decimal :=
  match d with
  | .nan negative signaling payload =>
    if signaling then .error .invalidOperation else .ok (.nan negative false payload)
  | .infinite negative =>
    if reaches f power then .ok (.infinite negative) else .error .invalidOperation
  | .finite negative coefficient exponent =>
    if reaches f power then f.fit negative coefficient (exponent + power)
    else .error .invalidOperation

def isIntegral : Decimal → Bool
  | .finite _ coefficient exponent =>
    decide (coefficient = 0) || decide (0 ≤ exponent) ||
      (decide ((-exponent).toNat ≤ digitCount coefficient) &&
        coefficient % 10 ^ (-exponent).toNat == 0)
  | _ => false

/-- The integer part of a finite decimal. -/
def truncate : Decimal → Int
  | .finite negative coefficient exponent =>
    let n : Nat :=
      if 0 ≤ exponent then coefficient * 10 ^ exponent.toNat
      else if digitCount coefficient < (-exponent).toNat then 0
      else coefficient / 10 ^ (-exponent).toNat
    if negative then -(n : Int) else n
  | _ => 0

/-! ## Order -/

/-- The order of two nonzero coefficients at their exponents. Where the first digits have the same
place, the exponents differ no more than the lengths. -/
def compareMagnitudes (c : Nat) (e : Int) (d : Nat) (f : Int) : Ordering :=
  match compare (adjusted c e) (adjusted d f) with
  | .eq => compare (c * 10 ^ (e - f).toNat) (d * 10 ^ (f - e).toNat)
  | o => o

/-- Minus one, zero or one; meaningful for a number. -/
def sign : Decimal → Int
  | .finite negative c _ => if c = 0 then 0 else if negative then -1 else 1
  | .infinite negative => if negative then -1 else 1
  | .nan .. => 0

/-- The order of two numbers by their values; `none` when one is no number. -/
def compare? (a b : Decimal) : Option Ordering :=
  match a, b with
  | .nan .., _ | _, .nan .. => none
  | _, _ =>
    if a.sign ≠ b.sign then some (compare a.sign b.sign)
    else if a.sign = 0 then some .eq
    else
      let magnitudes : Ordering :=
        match a, b with
        | .finite _ c e, .finite _ d f => compareMagnitudes c e d f
        | .infinite _, .finite .. => .gt
        | .finite .., .infinite _ => .lt
        | _, _ => .eq
      some (if a.sign = -1 then magnitudes.swap else magnitudes)

def compareInt? (d : Decimal) (n : Int) : Option Ordering := compare? d (ofInt n)

end Decimal

end LedgerClient
