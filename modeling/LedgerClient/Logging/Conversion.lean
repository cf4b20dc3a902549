import LedgerClient.Number.Binary
import LedgerClient.Text.Quoted

/-!
# Conversions of a line format

A placeholder names an attribute of a record and says how it is shown: a letter chooses the form, a
width the least length, a precision the number of digits or the greatest length, and flags the side
and the filling. A text takes no numeric form; what a letter cannot show has no text.
-/

namespace LedgerClient.Logging

/-- What an attribute of a record is. -/
inductive Attribute where
  | text (s : String)
  | number (n : Int)
  /-- A value that is only shown. -/
  | shown (s : String)

structure Conversion where
  flags : List Char
  width : Nat
  precision : Option Nat
  letter : Char

namespace Conversion

def has (c : Conversion) (flag : Char) : Bool := c.flags.contains flag

def fill (c : Char) (width : Nat) (s : List Char) : List Char := List.replicate (width - s.length) c

/-- The text at its side of the width. -/
def align (c : Conversion) (s : List Char) : List Char :=
  if c.has '-' then s ++ fill ' ' c.width s else fill ' ' c.width s ++ s

theorem align_length (c : Conversion) (s : List Char) :
    (c.align s).length = max c.width s.length := by
  unfold align fill
  split <;> simp <;> omega

/-- A text, cut to the precision. -/
def alignText (c : Conversion) (s : List Char) : List Char :=
  c.align ((c.precision.map fun n => s.take n).getD s)

/-- The sign of a number: a flag asks for one also where the number is not negative. -/
def signChars (c : Conversion) (negative : Bool) : List Char :=
  if negative then ['-'] else if c.has '+' then ['+'] else if c.has ' ' then [' '] else []

/-- A sign, a mark and digits; zeros fill the width between the mark and the digits. -/
def alignNumber (c : Conversion) (negative : Bool) (mark digits : List Char) : List Char :=
  let head := c.signChars negative ++ mark
  if c.has '0' && !c.has '-' then head ++ fill '0' c.width (head ++ digits) ++ digits
  else c.align (head ++ digits)

/-! ## Integers -/

def digitsIn (base n : Nat) : List Char := Nat.toDigits base n

/-- An integer in a base, with as many digits as the precision asks for. -/
def integer (c : Conversion) (base : Nat) (mark : List Char) (change : Char → Char) (n : Int) :
    List Char :=
  let digits := (digitsIn base n.natAbs).map change
  c.alignNumber (decide (n < 0)) (if c.has '#' then mark else [])
    (fill '0' (c.precision.getD 0) digits ++ digits)

/-! ## Floats -/

/-- The nearest number of at most `count` digits, and by how many places it was shortened. -/
def leading (count n : Nat) : Nat × Nat :=
  let dropped := (digitsIn 10 n).length - count
  let kept := Binary.roundDiv n (10 ^ dropped)
  if count < (digitsIn 10 kept).length then (kept / 10, dropped + 1) else (kept, dropped)

def point (c : Conversion) (decimals : List Char) : List Char :=
  if decimals.isEmpty && !c.has '#' then [] else '.' :: decimals

def fixed (c : Conversion) (places n : Nat) : List Char :=
  digitsIn 10 n ++ c.point (List.replicate places '0')

/-- Trailing zeros go unless a flag keeps them. -/
def dropZeros (c : Conversion) (decimals : List Char) : List Char :=
  if c.has '#' then decimals else (decimals.reverse.dropWhile (· = '0')).reverse

def exponentChars (mark : Char) (power : Nat) : List Char :=
  let digits := digitsIn 10 power
  mark :: '+' :: (fill '0' 2 digits ++ digits)

/-- One digit, the decimals, and the power of ten. -/
def scientific (c : Conversion) (mark : Char) (places n : Nat) (trim : Bool) : List Char :=
  let (kept, dropped) := leading (places + 1) n
  let digits := digitsIn 10 kept
  let tail := digits.drop 1 ++ List.replicate (places + 1 - digits.length) '0'
  digits.take 1 ++ c.point (if trim then c.dropZeros tail else tail) ++
    exponentChars mark (digits.length - 1 + dropped)

/-- Fixed while all digits fit into the precision, otherwise scientific. -/
def general (c : Conversion) (mark : Char) (n : Nat) : List Char :=
  let count := max 1 (c.precision.getD 6)
  let (kept, dropped) := leading count n
  let length := (digitsIn 10 kept).length + dropped
  if length ≤ count then
    digitsIn 10 n ++ c.point (c.dropZeros (List.replicate (count - length) '0'))
  else c.scientific mark (count - 1) n true

/-- An integer as the float next to it. -/
def float? (c : Conversion) (n : Int) : Option (List Char) := do
  let n ← (Binary.ofInt? n).bind Binary.truncate?
  let places := c.precision.getD 6
  let body ←
    match c.letter with
    | 'f' | 'F' => some (c.fixed places n.natAbs)
    | 'e' | 'E' => some (c.scientific c.letter places n.natAbs false)
    | 'g' => some (c.general 'e' n.natAbs)
    | 'G' => some (c.general 'E' n.natAbs)
    | _ => none
  return c.alignNumber (decide (n < 0)) [] body

/-! ## Attributes -/

/-- Quoted text in which every character beyond ASCII is written by its code. -/
def asciiQuoted (s : List Char) : List Char :=
  (Text.quoteChars s).flatMap fun c => if c.toNat < 128 then [c] else Text.escapeCode c.toNat

def character? (n : Int) : Option (List Char) :=
  if 0 ≤ n ∧ n < 0x110000 then some [Char.ofNat n.toNat] else none

def showText (c : Conversion) (s : List Char) : Option (List Char) :=
  match c.letter with
  | 's' => some (c.alignText s)
  | 'r' => some (c.alignText (Text.quoteChars s))
  | 'a' => some (c.alignText (asciiQuoted s))
  | 'c' => if s.length = 1 then some (c.align s) else none
  | _ => none

def showNumber (c : Conversion) (n : Int) : Option (List Char) :=
  match c.letter with
  | 's' | 'r' | 'a' => some (c.alignText (Integer.decimal n).toList)
  | 'd' | 'i' | 'u' => some (c.integer 10 [] id n)
  | 'o' => some (c.integer 8 ['0', 'o'] id n)
  | 'x' => some (c.integer 16 ['0', 'x'] id n)
  | 'X' => some (c.integer 16 ['0', 'X'] Char.toUpper n)
  | 'c' => (character? n).map c.align
  | _ => c.float? n

/-- The attribute in the chosen form. -/
def render (c : Conversion) (a : Attribute) : Option (List Char) :=
  match a with
  | .text s => c.showText s.toList
  | .number n => c.showNumber n
  | .shown s =>
    if c.letter = 's' || c.letter = 'r' || c.letter = 'a' then some (c.alignText s.toList) else none

end Conversion

end LedgerClient.Logging
