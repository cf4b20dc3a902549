import LedgerClient.Value.Basic
import LedgerClient.Number.Shortest

/-!
# The text of a value

A value is shown in full detail (`detailed`), texts quoted, or plainly (`display`): a text as it is,
an address by its checksum, an amount by its digits, a choice by its label. Inside containers the
detailed form is used. In a plain text lone halves are mended. An integer beyond the digit limit has
no text.
-/

namespace LedgerClient

namespace Value

def integerText (n : Int) : Except Fault String :=
  match Integer.decimal? n with
  | some s => .ok s
  | none => .error .badValue

theorem integerText_of_lt {n : Int} (h : n.natAbs < Integer.textBound) :
    integerText n = .ok (Integer.decimal n) := by
  rw [integerText, Integer.decimal?_eq_some h]

theorem integerText_of_le {n : Int} (h : Integer.textBound ≤ n.natAbs) :
    integerText n = .error .badValue := by
  rw [integerText, Integer.decimal?_eq_none h]

/-- Hexadecimal text exists of integers only. -/
def hexText (v : Value) : Except Fault String :=
  match v.integer? with
  | some n => .ok (Integer.hexadecimal n)
  | none => .error .wrongType

def boolText (b : Bool) : String := if b then "True" else "False"

def commaList (parts : List String) : String := ", ".intercalate parts

/-- A tuple of one element keeps a comma. -/
def tupleText : List String → String
  | [part] => "(" ++ part ++ ",)"
  | parts => "(" ++ commaList parts ++ ")"

def namedFields (names parts : List String) : String :=
  commaList ((names.zip parts).map fun (name, part) => name ++ "=" ++ part)

mutual

/-- The text of a value, detailed or plain; what it contains is always detailed. -/
def shown (full : Bool) : Value → Except Fault String
  | .null => .ok "None"
  | .bool b => .ok (boolText b)
  | .int n => integerText n
  | .float x => .ok (Shortest.text x)
  | .text s => .ok (if full then Text.quoted s else s)
  | .torn t => .ok (if full then t.quoted else t.mended)
  | .bytes bs => .ok (Text.quotedBytes bs)
  | .buffer bs => .ok ("bytearray(" ++ Text.quotedBuffer bs ++ ")")
  | .list items => do
    let parts ← shownItems items
    return "[" ++ commaList parts ++ "]"
  | .tuple items => do
    let parts ← shownItems items
    return tupleText parts
  | .dict entries => do
    let parts ← shownEntries entries
    return "\x7b" ++ commaList parts ++ "\x7d"
  | .decimal d => .ok (if full then "Decimal('" ++ d.text ++ "')" else d.text)
  | .address a => .ok (if full then "Address(" ++ a.checksum ++ ")" else a.checksum)
  | .amount a => .ok (if full then "TokenAmount(value=" ++ a.wire ++ ")" else a.wire)
  | .choice c => .ok (if full then c.detailed else c.text)
  | .member family name value => do
    let path := family ++ "." ++ name
    if full then
      let v ← shown true value
      return "<" ++ path ++ ": " ++ v ++ ">"
    else return path
  | .pair key value => do
    let k ← shown true key
    let v ← shown true value
    return "MetadataKVPair(key=" ++ k ++ ", value=" ++ v ++ ")"
  | .signature r s v => do
    let rText ← hexText r
    let sText ← hexText s
    let vText ← shown false v
    return "Signature(r=" ++ rText ++ ", s=" ++ sText ++ ", v=" ++ vText ++ ")"
  | .poll attempts interval => do
    let a ← shown true attempts
    let i ← shown true interval
    return "PollConfig(max_attempts=" ++ a ++ ", interval_seconds=" ++ i ++ ")"
  | .payload variant fields => do
    let parts ← shownItems fields
    return variant.name ++ "(" ++ namedFields (variant.layout.map Field.name) parts ++ ")"
  | .decoder d => .ok d.text
  | .failure _ plain detail => .ok (if full then detail else plain)

def shownItems : List Value → Except Fault (List String)
  | [] => .ok []
  | v :: rest => do
    let part ← shown true v
    let others ← shownItems rest
    return part :: others

def shownEntries : List (Value × Value) → Except Fault (List String)
  | [] => .ok []
  | (k, v) :: rest => do
    let key ← shown true k
    let value ← shown true v
    let others ← shownEntries rest
    return (key ++ ": " ++ value) :: others

end

def display (v : Value) : Except Fault String := shown false v

def detailed (v : Value) : Except Fault String := shown true v

/-- The plain text of a value as it is kept, lone halves and all. Only a torn text has any. -/
def script (v : Value) : Except Fault Script :=
  match v with
  | .torn t => .ok (.torn t)
  | _ => v.display.map .whole

theorem display_text (s : String) : display (.text s) = .ok s := rfl

theorem detailed_text (s : String) : detailed (.text s) = .ok (Text.quoted s) := rfl

end Value

theorem Script.display_toValue (s : Script) : s.toValue.display = .ok s.mended := by
  cases s <;> rfl

/-- A text shows itself. -/
theorem Script.script_toValue (s : Script) : s.toValue.script = .ok s := by
  cases s <;> rfl

end LedgerClient
