import LedgerClient.Number.Binary
import LedgerClient.Text.LetterCase

/-!
# Reading floating-point numerals

A numeral has a sign, digits with at most one point among or around them, and an exponent. A
single underscore may stand between two digits, blanks may surround the whole, and digits of
any script count. The words for infinity and for what is no number are read in any case.
-/

namespace LedgerClient.Floating

/-- The digits of a numeral as one natural number, and the power of ten that scales it. -/
structure Numeral where
  mantissa : Nat
  exponent : Int

/-- Digits of any script become ASCII; other characters stay. -/
def plainDigit (c : Char) : Char :=
  match Text.digit? c with
  | some d => Char.ofNat (48 + d)
  | none => c

def isDigit (c : Char) : Bool := (Text.asciiDigit? c).isSome

/-- Removes underscores between digits; another underscore makes the text unreadable. -/
def joinDigits (afterDigit : Bool) : List Char → Option (List Char)
  | [] => some []
  | '_' :: rest =>
    if afterDigit && (rest.head?.map isDigit).getD false then joinDigits false rest else none
  | c :: rest => (joinDigits (isDigit c) rest).map (c :: ·)

def digitsValue (s : List Char) : Nat :=
  s.foldl (fun n c => 10 * n + (Text.asciiDigit? c).getD 0) 0

def splitSign : List Char → Bool × List Char
  | '-' :: rest => (true, rest)
  | '+' :: rest => (false, rest)
  | s => (false, s)

/-- The part behind the digits: nothing, or a letter, a sign and digits. -/
def readExponent : List Char → Option Int
  | [] => some 0
  | c :: rest =>
    if c = 'e' || c = 'E' then
      let (negative, digits) := splitSign rest
      if digits.isEmpty || !digits.all isDigit then none
      else
        let n := digitsValue digits
        some (if negative then -(n : Int) else n)
    else none

def readUnsigned (s : List Char) : Option Numeral :=
  let whole := s.takeWhile isDigit
  let rest := s.dropWhile isDigit
  let (fraction, tail) :=
    match rest with
    | '.' :: after => (after.takeWhile isDigit, after.dropWhile isDigit)
    | _ => ([], rest)
  if whole.isEmpty && fraction.isEmpty then none
  else (readExponent tail).map fun e =>
    ⟨digitsValue (whole ++ fraction), e - fraction.length⟩

def readSpecial (negative : Bool) (s : List Char) : Option Float :=
  match String.ofList (Text.lowerChars s) with
  | "inf" | "infinity" => some (Binary.infinity negative)
  | "nan" => some Binary.notANumber
  | _ => none

def readChars (s : List Char) : Option Float := do
  let joined ← joinDigits false ((Text.trimBoth Text.isNumeralBlank s).map plainDigit)
  let (negative, body) := splitSign joined
  match readUnsigned body with
  | some n => some (Binary.ofDecimal negative n.mantissa n.exponent)
  | none => readSpecial negative body

def read? (s : String) : Option Float := readChars s.toList

end LedgerClient.Floating
