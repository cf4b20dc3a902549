import LedgerClient.Text.Utf8
import LedgerClient.Value.Text

/-!
# Queries

Parameters are joined by `&`, name and value by `=`. In both every byte of their UTF-8 form other
than a letter, a digit or one of `_.-~` is written by its code behind `%`, and a blank as `+`. A torn text
has no such form.
-/

namespace LedgerClient.Url

def isUnreserved (b : UInt8) : Bool :=
  let n := b.toNat
  (decide (48 ≤ n) && decide (n ≤ 57)) || (decide (65 ≤ n) && decide (n ≤ 90)) ||
    (decide (97 ≤ n) && decide (n ≤ 122)) || n = 95 || n = 46 || n = 45 || n = 126

def upperHexDigit (n : Nat) : Char := if n < 10 then Char.ofNat (48 + n) else Char.ofNat (55 + n)

def quoteByte (b : UInt8) : List Char :=
  if isUnreserved b then [Char.ofNat b.toNat]
  else if b.toNat = 32 then ['+']
  else ['%', upperHexDigit (b.toNat / 16), upperHexDigit (b.toNat % 16)]

def quoteBytes (bs : Bytes) : List Char := bs.flatMap quoteByte

def quoteText (s : String) : List Char := quoteBytes (Text.utf8 s)

def joinPairs : List (List Char × List Char) → List Char
  | [] => []
  | [(name, value)] => name ++ '=' :: value
  | (name, value) :: rest => name ++ '=' :: value ++ '&' :: joinPairs rest

/-- The quoted form of any text that has one. -/
def quoteScript (s : Script) : Except Fault (List Char) :=
  match s.utf8? with
  | some bs => .ok (quoteBytes bs)
  | none => .error .unencodable

/-- The query of some named texts. -/
def query (pairs : List (String × String)) : List Char :=
  joinPairs (pairs.map fun (name, value) => (quoteText name, quoteText value))

theorem query_nil : query [] = [] := rfl

/-! ## Parameters of a request -/

/-- A parameter's name is text; another key is taken by its text, bytes as they are. -/
def quoteKey (key : Value) : Except Fault (List Char) :=
  match key with
  | .bytes bs => .ok (quoteBytes bs)
  | _ => do
    let s ← key.script
    quoteScript s

/-- The present parameters with the text of their values. -/
def presentValues : List (Value × Value) → Except Fault (List (Value × Script))
  | [] => .ok []
  | (k, v) :: rest =>
    if v.isNull then presentValues rest
    else do
      let s ← v.script
      let others ← presentValues rest
      return (k, s) :: others

def quotePairs : List (Value × Script) → Except Fault (List (List Char × List Char))
  | [] => .ok []
  | (k, s) :: rest => do
    let key ← quoteKey k
    let value ← quoteScript s
    let others ← quotePairs rest
    return (key, value) :: others

/-- A URL with the present parameters as its query; absent ones are left out. -/
def withParameters (url : String) (params : Value) : Except Fault String :=
  if !params.truthy then .ok url
  else match params with
    | .dict entries => do
      let present ← presentValues entries
      let pairs ← quotePairs present
      if pairs.isEmpty then return url
      else return url ++ String.ofList ('?' :: joinPairs pairs)
    | _ => .error .noAttribute

theorem withParameters_null (url : String) : withParameters url .null = .ok url := rfl

end LedgerClient.Url
