import LedgerClient.Value.Text

/-!
# Writing JSON

A body is written without blanks. In texts only the quote, the backslash and the control
characters are escaped, and lone halves are mended. Dictionary keys are texts; a number, a truth value
or an absent value as a key is turned into text. Nothing else can be written.
-/

namespace LedgerClient.Json

def escapeChar (c : Char) : List Char :=
  if c = '"' then ['\\', '"']
  else if c = '\\' then ['\\', '\\']
  else if c = '\n' then ['\\', 'n']
  else if c = '\r' then ['\\', 'r']
  else if c = '\t' then ['\\', 't']
  else if c.toNat = 8 then ['\\', 'b']
  else if c.toNat = 12 then ['\\', 'f']
  else if c.toNat < 0x20 then '\\' :: 'u' :: Text.hexPadded 4 c.toNat
  else [c]

def stringChars (s : List Char) : List Char := '"' :: s.flatMap escapeChar ++ ['"']

def stringText (s : String) : String := String.ofList (stringChars s.toList)

def floatText (x : Float) : String :=
  if Binary.isNaN x then "NaN"
  else if Binary.isInfinite x then (if Binary.isNegative x then "-Infinity" else "Infinity")
  else Shortest.text x

def boolText (b : Bool) : String := if b then "true" else "false"

def keyText (key : Value) : Except Fault String :=
  match key with
  | .text s => .ok s
  | .torn t => .ok t.mended
  | .bool b => .ok (boolText b)
  | .null => .ok "null"
  | .int n => Value.integerText n
  | .float x => .ok (floatText x)
  | _ => .error .wrongType

mutual

def write : Value → Except Fault String
  | .null => .ok "null"
  | .bool b => .ok (boolText b)
  | .int n => Value.integerText n
  | .float x => .ok (floatText x)
  | .text s => .ok (stringText s)
  | .torn t => .ok (stringText t.mended)
  | .list items | .tuple items => do
    let parts ← writeItems items
    return "[" ++ ",".intercalate parts ++ "]"
  | .dict entries => do
    let parts ← writeEntries entries
    return "\x7b" ++ ",".intercalate parts ++ "\x7d"
  | _ => .error .wrongType

def writeItems : List Value → Except Fault (List String)
  | [] => .ok []
  | v :: rest => do
    let part ← write v
    let others ← writeItems rest
    return part :: others

def writeEntries : List (Value × Value) → Except Fault (List String)
  | [] => .ok []
  | (k, v) :: rest => do
    let key ← keyText k
    let value ← write v
    let others ← writeEntries rest
    return (stringText key ++ ":" ++ value) :: others

end

mutual

/-- A torn text is among what is written. -/
def holdsTorn : Value → Bool
  | .torn _ => true
  | .list items | .tuple items => anyTorn items
  | .dict entries => anyEntryTorn entries
  | _ => false

def anyTorn : List Value → Bool
  | [] => false
  | v :: rest => holdsTorn v || anyTorn rest

def anyEntryTorn : List (Value × Value) → Bool
  | [] => false
  | (k, v) :: rest => holdsTorn k || holdsTorn v || anyEntryTorn rest

end

theorem write_text (s : String) : write (.text s) = .ok (stringText s) := rfl

end LedgerClient.Json
