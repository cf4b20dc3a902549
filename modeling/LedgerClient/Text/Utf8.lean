import LedgerClient.Bytes

/-!
# UTF-8

Text is encoded character by character. Decoding never fails: each longest piece that begins a
character but cannot be continued to one, and each byte that cannot begin one, is replaced by a
single U+FFFD.
-/

namespace LedgerClient.Text

def utf8 (s : String) : Bytes := s.toList.flatMap String.utf8EncodeChar

theorem utf8_empty : utf8 "" = [] := rfl

namespace Utf8

/-- A character of which some bytes are read. The next byte lies between `low` and `high`. -/
structure Pending where
  need : Nat
  low : Nat
  high : Nat
  code : Nat

inductive Lead where
  | whole (c : Char)
  | first (pending : Pending)
  | invalid

def replacement : Char := Char.ofNat 0xFFFD

/-- What a byte begins. The bounds of the second byte keep out overlong forms, surrogates and
codes beyond the last character. -/
def lead (b : Nat) : Lead :=
  if b < 0x80 then .whole (Char.ofNat b)
  else if b < 0xC2 then .invalid
  else if b < 0xE0 then .first ⟨1, 0x80, 0xBF, b - 0xC0⟩
  else if b = 0xE0 then .first ⟨2, 0xA0, 0xBF, 0⟩
  else if b = 0xED then .first ⟨2, 0x80, 0x9F, b - 0xE0⟩
  else if b < 0xF0 then .first ⟨2, 0x80, 0xBF, b - 0xE0⟩
  else if b = 0xF0 then .first ⟨3, 0x90, 0xBF, 0⟩
  else if b < 0xF4 then .first ⟨3, 0x80, 0xBF, b - 0xF0⟩
  else if b = 0xF4 then .first ⟨3, 0x80, 0x8F, b - 0xF0⟩
  else .invalid

def start (b : Nat) : List Char × Option Pending :=
  match lead b with
  | .whole c => ([c], none)
  | .first pending => ([], some pending)
  | .invalid => ([replacement], none)

def step (pending : Option Pending) (b : Nat) : List Char × Option Pending :=
  match pending with
  | none => start b
  | some p =>
    if p.low ≤ b ∧ b ≤ p.high then
      let code := 64 * p.code + (b - 0x80)
      if p.need ≤ 1 then ([Char.ofNat code], none)
      else ([], some ⟨p.need - 1, 0x80, 0xBF, code⟩)
    else
      let (chars, next) := start b
      (replacement :: chars, next)

def decodeFrom (pending : Option Pending) : Bytes → List Char
  | [] => if pending.isSome then [replacement] else []
  | b :: rest =>
    let (chars, next) := step pending b.toNat
    chars ++ decodeFrom next rest

theorem decodeFrom_nil_none : decodeFrom none [] = [] := rfl

theorem decodeFrom_ascii {b : UInt8} (rest : Bytes) (h : b.toNat < 0x80) :
    decodeFrom none (b :: rest) = Char.ofNat b.toNat :: decodeFrom none rest := by
  simp [decodeFrom, step, start, lead, h]

end Utf8

/-- The text of any byte string. -/
def ofUtf8 (bs : Bytes) : String := String.ofList (Utf8.decodeFrom none bs)

theorem ofUtf8_nil : ofUtf8 [] = "" := rfl

end LedgerClient.Text
