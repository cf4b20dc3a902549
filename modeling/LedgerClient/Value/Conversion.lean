import LedgerClient.Value.Text
import LedgerClient.Error.Basic

/-!
# Conversions of values

Bytes can be taken from byte strings, from an address, from a list of small integers, or as a
number of zero bytes. An error that shows a value can only be raised when the value has a text;
otherwise the missing text is the fault.
-/

namespace LedgerClient.Value

def byteOf (v : Value) : Except Fault UInt8 :=
  match v.integer? with
  | some n => if 0 ≤ n ∧ n < 256 then .ok (UInt8.ofNat n.toNat) else .error .badValue
  | none => .error .wrongType

def byteList : List Value → Except Fault Bytes
  | [] => .ok []
  | v :: rest => do
    let b ← byteOf v
    let others ← byteList rest
    return b :: others

/-- The largest number of bytes that can be asked for. -/
def sizeLimit : Nat := 2 ^ 63

def zeroBytes (n : Int) : Except Fault Bytes :=
  if n < 0 then .error .badValue
  else if sizeLimit ≤ n.toNat then .error .overflow
  else .ok (Bytes.zeros n.toNat)

def toBytes : Value → Except Fault Bytes
  | .bytes bs | .buffer bs => .ok bs
  | .address a => .ok a.bytes
  | .int n => zeroBytes n
  | .bool b => zeroBytes (if b then 1 else 0)
  | .list items | .tuple items => byteList items
  | .dict entries => byteList (entries.map Prod.fst)
  | _ => .error .wrongType

theorem toBytes_bytes (bs : Bytes) : toBytes (.bytes bs) = .ok bs := rfl

end LedgerClient.Value

namespace LedgerClient.Result

/-- Fails with an error whose message shows a value in detail. -/
def failShowing {α : Type} (v : Value) (e : String → ClientError) : Result α := do
  let shown ← ofFault v.detailed
  fail (e shown)

/-- Fails with an error whose message shows a value plainly. -/
def failDisplaying {α : Type} (v : Value) (e : String → ClientError) : Result α := do
  let shown ← ofFault v.display
  fail (e shown)

/-- Fails with an error about a field that holds a value of the wrong type. -/
def failExpected {α : Type} (field what : String) (v : Value) : Result α :=
  fail (.invalidField field (.expected what v.typeName))

end LedgerClient.Result
