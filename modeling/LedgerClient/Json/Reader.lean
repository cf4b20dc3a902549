import LedgerClient.Number.Floating
import LedgerClient.Value.Equality

/-!
# Reading JSON

The grammar is that of JSON with three more words: `NaN`, `Infinity` and `-Infinity`. A number
with a point or an exponent is a float, any other an integer of at most the limit of digits. When
an object names a key twice, the last value stands at the first place. An escaped half of a surrogate
pair stands alone when the other half does not follow. Nothing but blanks may follow the value, and
lists and objects may stand inside each other up to a limit.
-/

namespace LedgerClient.Json

def isBlank (c : Char) : Bool := c = ' ' || c = '\t' || c = '\n' || c = '\r'

def skipBlanks (s : List Char) : List Char := s.dropWhile isBlank

/-- Drops an expected beginning. -/
def expect : List Char → List Char → Option (List Char)
  | [], s => some s
  | _ :: _, [] => none
  | e :: es, c :: s => if e = c then expect es s else none

theorem expect_nil (s : List Char) : expect [] s = some s := by cases s <;> rfl

/-- Why there is no value: the text is no JSON up to where it was read, or it goes too deep there. -/
inductive Stop where
  | malformed
  | tooDeep
  deriving DecidableEq, Repr

def orMalformed {α : Type} : Option α → Except Stop α
  | some a => .ok a
  | none => .error .malformed

/-! ## Texts -/

def hexQuad : List Char → Option (Nat × List Char)
  | a :: b :: c :: d :: rest => do
    let a ← Bytes.hexValue? a
    let b ← Bytes.hexValue? b
    let c ← Bytes.hexValue? c
    let d ← Bytes.hexValue? d
    return (4096 * a + 256 * b + 16 * c + d, rest)
  | _ => none

def shortEscape? : Char → Option Char
  | '"' => some '"'
  | '\\' => some '\\'
  | '/' => some '/'
  | 'b' => some (Char.ofNat 8)
  | 'f' => some (Char.ofNat 12)
  | 'n' => some '\n'
  | 'r' => some '\r'
  | 't' => some '\t'
  | _ => none

def isHighHalf (n : Nat) : Bool := decide (0xD800 ≤ n) && decide (n ≤ 0xDBFF)

def isLowHalf (n : Nat) : Bool := decide (0xDC00 ≤ n) && decide (n ≤ 0xDFFF)

/-- What a code unit stands for alone. -/
def unitGlyph (n : Nat) : Glyph :=
  if h : 0xD800 ≤ n ∧ n < 0xE000 then .half ⟨n, h⟩ else .char (Char.ofNat n)

/-- What a code unit stands for; a high half takes the low half that follows it. -/
def readUnit (n : Nat) (rest : List Char) : Glyph × List Char :=
  if isHighHalf n then
    match rest with
    | '\\' :: 'u' :: more =>
      match hexQuad more with
      | some (low, after) =>
        if isLowHalf low then
          (.char (Char.ofNat (0x10000 + 0x400 * (n - 0xD800) + (low - 0xDC00))), after)
        else (unitGlyph n, rest)
      | none => (unitGlyph n, rest)
    | _ => (unitGlyph n, rest)
  else (unitGlyph n, rest)

/-- What stands up to the closing quote, in reverse behind what was already read. -/
def readString : Nat → List Glyph → List Char → Option (List Glyph × List Char)
  | 0, _, _ => none
  | _ + 1, _, [] => none
  | fuel + 1, done, c :: rest =>
    if c = '"' then some (done.reverse, rest)
    else if c = '\\' then
      match rest with
      | 'u' :: more =>
        match hexQuad more with
        | some (n, after) =>
          let (glyph, after) := readUnit n after
          readString fuel (glyph :: done) after
        | none => none
      | e :: more =>
        match shortEscape? e with
        | some char => readString fuel (.char char :: done) more
        | none => none
      | [] => none
    else if c.toNat < 0x20 then none
    else readString fuel (.char c :: done) rest

/-! ## Numbers -/

def isDigit (c : Char) : Bool := Floating.isDigit c

/-- The digits before the point: a zero alone, or digits without a leading zero. -/
def readWhole (s : List Char) : Option (List Char × List Char) :=
  match s with
  | '0' :: rest => some (['0'], rest)
  | _ =>
    let digits := s.takeWhile isDigit
    if digits.isEmpty then none else some (digits, s.dropWhile isDigit)

/-- A point counts only before a digit. -/
def readFraction (s : List Char) : Option (List Char) × List Char :=
  match s with
  | '.' :: rest =>
    let digits := rest.takeWhile isDigit
    if digits.isEmpty then (none, s) else (some digits, rest.dropWhile isDigit)
  | _ => (none, s)

/-- An exponent counts only with digits. -/
def readPower (s : List Char) : Option Int × List Char :=
  match s with
  | e :: rest =>
    if e = 'e' || e = 'E' then
      let (negative, body) := Floating.splitSign rest
      let digits := body.takeWhile isDigit
      if digits.isEmpty then (none, s)
      else
        let n : Int := Floating.digitsValue digits
        (some (if negative then -n else n), body.dropWhile isDigit)
    else (none, s)
  | [] => (none, s)

def number (negative : Bool) (whole : List Char) (fraction : Option (List Char)) (power : Option Int) :
    Option Value :=
  match fraction, power with
  | none, none =>
    if Integer.digitLimit < whole.length then none
    else
      let n : Int := Floating.digitsValue whole
      some (.int (if negative then -n else n))
  | _, _ =>
    let digits := fraction.getD []
    let mantissa := Floating.digitsValue (whole ++ digits)
    some (.float (Binary.ofDecimal negative mantissa (power.getD 0 - digits.length)))

def readNumber (s : List Char) : Option (Value × List Char) := do
  let (negative, body) := match s with
    | '-' :: rest => (true, rest)
    | _ => (false, s)
  let (whole, rest) ← readWhole body
  let (fraction, rest) := readFraction rest
  let (power, rest) := readPower rest
  let v ← number negative whole fraction power
  return (v, rest)

/-! ## Values -/

def words : List (List Char × Value) :=
  [("null".toList, .null), ("true".toList, .bool true), ("false".toList, .bool false),
    ("NaN".toList, .float Binary.notANumber), ("Infinity".toList, .float (Binary.infinity false)),
    ("-Infinity".toList, .float (Binary.infinity true))]

def readWord (s : List Char) : Option (Value × List Char) :=
  words.findSome? fun (word, v) => (expect word s).map fun rest => (v, rest)

def readScalar (s : List Char) : Option (Value × List Char) :=
  match readWord s with
  | some r => some r
  | none => readNumber s

/-- The levels of lists and objects that are followed: the interpreter's thousand nested calls without
those of the caller, the client and the reader around them. -/
def nestingLimit : Nat := 980

mutual

/-- A value at the beginning of a text, and what follows it; so many levels are left. -/
def readValue : Nat → Nat → List Char → Except Stop (Value × List Char)
  | _, 0, _ => .error .malformed
  | levels, fuel + 1, s =>
    match s with
    | '"' :: rest => do
      let (glyphs, rest) ← orMalformed (readString (rest.length + 1) [] rest)
      return ((Script.ofGlyphs glyphs).toValue, rest)
    | '[' :: rest =>
      match levels with
      | 0 => .error .tooDeep
      | inner + 1 =>
        match skipBlanks rest with
        | ']' :: after => .ok (.list [], after)
        | body => do
          let (items, rest) ← readItems inner fuel [] body
          return (.list items, rest)
    | '\x7b' :: rest =>
      match levels with
      | 0 => .error .tooDeep
      | inner + 1 =>
        match skipBlanks rest with
        | '\x7d' :: after => .ok (.dict [], after)
        | body => do
          let (entries, rest) ← readEntries inner fuel [] body
          return (.dict entries, rest)
    | _ => orMalformed (readScalar s)

/-- The rest of an array, from an element on; the elements already read stand in reverse. -/
def readItems : Nat → Nat → List Value → List Char → Except Stop (List Value × List Char)
  | _, 0, _, _ => .error .malformed
  | levels, fuel + 1, done, s => do
    let (v, rest) ← readValue levels fuel s
    match skipBlanks rest with
    | ',' :: more => readItems levels fuel (v :: done) (skipBlanks more)
    | ']' :: after => .ok ((v :: done).reverse, after)
    | _ => .error .malformed

/-- The rest of an object, from a key on. -/
def readEntries :
    Nat → Nat → List (Value × Value) → List Char → Except Stop (List (Value × Value) × List Char)
  | _, 0, _, _ => .error .malformed
  | levels, fuel + 1, done, s =>
    match s with
    | '"' :: rest => do
      let (key, rest) ← orMalformed (readString (rest.length + 1) [] rest)
      match skipBlanks rest with
      | ':' :: more => do
        let (v, rest) ← readValue levels fuel (skipBlanks more)
        let entries := Value.insertEntry (Script.ofGlyphs key).toValue v done
        match skipBlanks rest with
        | ',' :: more => readEntries levels fuel entries (skipBlanks more)
        | '\x7d' :: after => .ok (entries, after)
        | _ => .error .malformed
      | _ => .error .malformed
    | _ => .error .malformed

end

def readChars (s : List Char) : Except Stop Value := do
  let (v, rest) ← readValue nestingLimit (2 * s.length + 2) (skipBlanks s)
  if (skipBlanks rest).isEmpty then return v else .error .malformed

/-- The value that a whole text denotes. -/
def read (s : String) : Except Stop Value := readChars s.toList

end LedgerClient.Json
