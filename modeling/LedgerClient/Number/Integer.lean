import LedgerClient.Number.Power
import LedgerClient.Text.Blank
import LedgerClient.Text.Digit

/-!
# Integers as text

An integer has a decimal text when it has at most 4300 digits, and a decimal numeral of more
digits is not read either. Powers of two as bases know no limit. A numeral may carry a sign,
blanks around it, and single underscores between its digits; decimal digits of any script
count.
-/

namespace LedgerClient.Integer

def digitLimit : Nat := 4300

/-- The least natural number that has no decimal text. -/
@[irreducible] def textBound : Nat := 10 ^ digitLimit

def decimalChars (n : Nat) : List Char := Nat.toDigits 10 n

def signedChars (sign : Bool) (digits : List Char) : List Char :=
  if sign then '-' :: digits else digits

/-- Decimal text without a limit on the digits. -/
def decimal (n : Int) : String := String.ofList (signedChars (decide (n < 0)) (decimalChars n.natAbs))

/-- Decimal text of an integer within the limit. -/
def decimal? (n : Int) : Option String :=
  if n.natAbs < textBound then some (decimal n) else none

theorem decimal?_eq_some {n : Int} (h : n.natAbs < textBound) : decimal? n = some (decimal n) := by
  simp [decimal?, h]

theorem decimal?_eq_none {n : Int} (h : textBound ≤ n.natAbs) : decimal? n = none := by
  simp [decimal?, Nat.not_lt.mpr h]

/-- Hexadecimal text with `0x` behind the sign. -/
def hexadecimal (n : Int) : String :=
  String.ofList (signedChars (decide (n < 0)) ('0' :: 'x' :: Nat.toDigits 16 n.natAbs))

def letterDigit? (c : Char) : Option Nat :=
  let n := c.toNat
  if 97 ≤ n ∧ n ≤ 122 then some (n - 87)
  else if 65 ≤ n ∧ n ≤ 90 then some (n - 55)
  else none

def digitIn? (base : Nat) (c : Char) : Option Nat :=
  match (Text.digit? c).or (letterDigit? c) with
  | some d => if d < base then some d else none
  | none => none

theorem digitIn?_lt {base : Nat} {c : Char} {d : Nat} (h : digitIn? base c = some d) : d < base := by
  simp only [digitIn?] at h
  split at h
  · split at h
    · simp only [Option.some.injEq] at h; omega
    · simp at h
  · simp at h

/-- Digits with single underscores between them; `afterDigit` says that an underscore or the end
may follow. -/
def scanDigits (base : Nat) (afterDigit : Bool) : List Char → Option (List Nat)
  | [] => if afterDigit then some [] else none
  | c :: rest =>
    if c = '_' then
      if afterDigit then scanDigits base false rest else none
    else match digitIn? base c with
      | some d => (scanDigits base true rest).map (d :: ·)
      | none => none

def ofDigits (base : Nat) (digits : List Nat) : Nat := digits.foldl (fun n d => base * n + d) 0

theorem ofDigits_nil (base : Nat) : ofDigits base [] = 0 := rfl

/-- The base that a letter after a leading zero announces. -/
def announcedBase? (c : Char) : Option Nat :=
  if c = 'x' || c = 'X' then some 16
  else if c = 'o' || c = 'O' then some 8
  else if c = 'b' || c = 'B' then some 2
  else none

def isZeroDigit (c : Char) : Bool := Text.digit? c = some 0

def dropUnderscore : List Char → List Char
  | '_' :: rest => rest
  | s => s

/-- Digits in a given base, which may announce that base themselves. -/
def readDigits (base : Nat) (s : List Char) : Option Nat :=
  let body :=
    match s with
    | z :: letter :: rest =>
      if isZeroDigit z && announcedBase? letter = some base then dropUnderscore rest else s
    | _ => s
  match scanDigits base false body with
  | some digits =>
    if base = 10 && decide (digitLimit < digits.length) then none else some (ofDigits base digits)
  | none => none

/-- Digits in the base that they announce, in base ten otherwise; a decimal numeral other than
zero begins with no zero. -/
def readLiteralDigits (s : List Char) : Option Nat :=
  match s with
  | z :: rest =>
    if isZeroDigit z then
      match rest.head?.bind announcedBase? with
      | some base => readDigits base s
      | none => (readDigits 10 s).filter (· = 0)
    else readDigits 10 s
  | [] => none

def readSigned (read : List Char → Option Nat) (s : String) : Option Int :=
  match Text.trimBoth Text.isNumeralBlank s.toList with
  | '-' :: rest => (read rest).map fun n => -(n : Int)
  | '+' :: rest => (read rest).map Int.ofNat
  | rest => (read rest).map Int.ofNat

/-- Reads a numeral in a fixed base. -/
def read? (base : Nat) (s : String) : Option Int := readSigned (readDigits base) s

/-- Reads a numeral that may announce its base by `0x`, `0o` or `0b`. -/
def readLiteral? (s : String) : Option Int := readSigned readLiteralDigits s

end LedgerClient.Integer
