import LedgerClient.Bytes
import LedgerClient.Text.Printable

/-!
# Quoted text

A text is shown between single quotes, or between double quotes when it holds a single quote
and no double one. A backslash and the quote in use are escaped, tab, line feed and carriage
return have short escapes, and any other unprintable character is written by its code in two,
four or eight hexadecimal digits. Bytes are quoted the same way, each byte beyond ASCII by its
code; in a mutable buffer a single quote is escaped whatever encloses it.
-/

namespace LedgerClient.Text

/-- The last `width` hexadecimal digits of a number. -/
def hexPadded : Nat → Nat → List Char
  | 0, _ => []
  | width + 1, n => hexPadded width (n / 16) ++ [Bytes.hexDigit (n % 16)]

theorem hexPadded_length (width n : Nat) : (hexPadded width n).length = width := by
  induction width generalizing n with
  | zero => rfl
  | succ w ih => simp [hexPadded, ih]

/-- The quote that encloses a text. -/
def quoteFor (s : List Char) : Char :=
  if s.contains '\'' && !s.contains '"' then '"' else '\''

def escapeCommon (quote c : Char) : Option (List Char) :=
  if c = quote || c = '\\' then some ['\\', c]
  else if c = '\n' then some ['\\', 'n']
  else if c = '\r' then some ['\\', 'r']
  else if c = '\t' then some ['\\', 't']
  else none

def escapeCode (n : Nat) : List Char :=
  if n < 0x100 then '\\' :: 'x' :: hexPadded 2 n
  else if n < 0x10000 then '\\' :: 'u' :: hexPadded 4 n
  else '\\' :: 'U' :: hexPadded 8 n

def quoteChar (quote c : Char) : List Char :=
  match escapeCommon quote c with
  | some escaped => escaped
  | none => if isPrintable c then [c] else escapeCode c.toNat

def quoteChars (s : List Char) : List Char :=
  let quote := quoteFor s
  quote :: s.flatMap (quoteChar quote) ++ [quote]

def quoted (s : String) : String := String.ofList (quoteChars s.toList)

def quoteByte (quote : Char) (b : UInt8) : List Char :=
  let c := Char.ofNat b.toNat
  match escapeCommon quote c with
  | some escaped => escaped
  | none => if 32 ≤ b.toNat && b.toNat < 127 then [c] else escapeCode b.toNat

def quoteForBytes (bs : Bytes) : Char := quoteFor (bs.map fun b => Char.ofNat b.toNat)

def quotedBytes (bs : Bytes) : String :=
  let quote := quoteForBytes bs
  String.ofList ('b' :: quote :: bs.flatMap (quoteByte quote) ++ [quote])

def quoteBufferByte (quote : Char) (b : UInt8) : List Char :=
  if b.toNat = '\''.toNat then ['\\', '\''] else quoteByte quote b

def quotedBuffer (bs : Bytes) : String :=
  let quote := quoteForBytes bs
  String.ofList ('b' :: quote :: bs.flatMap (quoteBufferByte quote) ++ [quote])

theorem quoteChars_ne_nil (s : List Char) : quoteChars s ≠ [] := by simp [quoteChars]

end LedgerClient.Text
