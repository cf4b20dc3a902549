import LedgerClient.Value.Arithmetic
import LedgerClient.Value.Conversion

/-!
# Recoverable signatures as values

A signature is three integers: two scalars and the recovery indicator. They are read from
integers, decimal text or hexadecimal text behind `0x`, written in hexadecimal, and packed into 65
bytes when they fit.
-/

namespace LedgerClient

structure Signature where
  r : Int
  s : Int
  v : Int
  deriving DecidableEq, Repr

namespace Signature

def toValue (sig : Signature) : Value := .signature (.int sig.r) (.int sig.s) (.int sig.v)

def recoveryOffset : Int := 27

/-- A scalar as a caller may write it; truth values are no scalars. -/
def scalar (name : String) (value : Value) : Except Fault Int :=
  match value with
  | .bool _ => .error (.refused (.scalarTruth name))
  | .int n => .ok n
  | .text s =>
    let body := Text.trimChars s.toList
    let read : Option Int :=
      match body with
      | '0' :: x :: rest =>
        if x = 'x' || x = 'X' then
          Integer.read? 16 (if rest.isEmpty then "0" else String.ofList rest)
        else Integer.read? 10 (String.ofList body)
      | _ => Integer.read? 10 (String.ofList body)
    match read with
    | some n => .ok n
    | none => .error .badValue
  | .torn _ => .error .badValue
  | other => .error (.refused (.scalarType name other.typeName))

theorem scalar_int (name : String) (n : Int) : scalar name (.int n) = .ok n := rfl

/-- Reads the entries `r`, `s` and `v` in this order. -/
def ofDict (data : Value) : Except Fault Signature := do
  let r ← scalar "r" (← data.require "r")
  let s ← scalar "s" (← data.require "s")
  let v ← scalar "v" (← data.require "v")
  return ⟨r, s, v⟩

/-- The entries of a signature whose parts may be of any shape. -/
def dictOf (r s v : Value) : Except Fault Value := do
  let rText ← r.hexText
  let sText ← s.hexText
  return Value.record [("r", .text rText), ("s", .text sText), ("v", v)]

def toDict (sig : Signature) : Value :=
  Value.record [("r", .text (Integer.hexadecimal sig.r)), ("s", .text (Integer.hexadecimal sig.s)),
    ("v", .int sig.v)]

theorem dictOf_toDict (sig : Signature) : dictOf (.int sig.r) (.int sig.s) (.int sig.v) = .ok sig.toDict :=
  rfl

/-- The indicator without its offset. -/
def recoveryOf (v : Value) : Except Fault Value :=
  match v with
  | .float x =>
    match Binary.compareInt? x recoveryOffset with
    | some .lt | none => .ok v
    | _ => .ok (.float (x - 27.0))
  | .decimal d => do
    if ← v.isBelow recoveryOffset then return v
    Value.ofDecimal (Decimal.add .plain d (.ofInt (-recoveryOffset)))
  | _ =>
    match v.integer? with
    | some n => .ok (if recoveryOffset ≤ n then .int (n - recoveryOffset) else v)
    | none => .error .wrongType

/-- A scalar in 32 bytes. -/
def scalarBytes (v : Value) : Except Fault Bytes :=
  match v.integer? with
  | some n =>
    if 0 ≤ n ∧ n.toNat < 2 ^ 256 then .ok (Bytes.ofNat 32 n.toNat) else .error .overflow
  | none => .error .noAttribute

/-- The two scalars and the indicator in one byte. -/
def bytesOf (r s v : Value) : Except Fault Bytes := do
  let rBytes ← scalarBytes r
  let sBytes ← scalarBytes s
  let vByte ← v.byteOf
  return rBytes ++ sBytes ++ [vByte]

end Signature

end LedgerClient
