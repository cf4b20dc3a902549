import LedgerClient.Address.Basic
import LedgerClient.Amount.Basic
import LedgerClient.Decoder
import LedgerClient.Fault
import LedgerClient.Payload.Layout
import LedgerClient.Text.Script

/-!
# Values

Callers hand in, and responses hold, values of any of these shapes; each operation checks what it
accepts. A dictionary is a list of entries in insertion order. A signature, a metadata pair and
the fields of a payload may hold values of any shape, because they are not checked when they are
put together.
-/

namespace LedgerClient

inductive Value where
  | null
  | bool (b : Bool)
  | int (n : Int)
  | float (x : Float)
  | text (s : String)
  /-- A text with a lone half of a surrogate pair. -/
  | torn (t : Torn)
  | bytes (bs : Bytes)
  /-- Bytes in a mutable buffer. -/
  | buffer (bs : Bytes)
  | list (items : List Value)
  | tuple (items : List Value)
  | dict (entries : List (Value × Value))
  | decimal (d : Decimal)
  | address (a : Address)
  | amount (a : TokenAmount)
  | choice (c : Choice)
  /-- A member of an enumeration that is none of the protocol's, with the name of its family, its own
  name and its value. One that is a text as well is that text, and where no choice is asked for, one that
  is a number as well is that number. -/
  | member (family name : String) (value : Value)
  /-- A metadata entry. -/
  | pair (key value : Value)
  | signature (r s v : Value)
  /-- Polling defaults: the number of attempts and the seconds between them. -/
  | poll (attempts interval : Value)
  | payload (variant : Variant) (fields : List Value)
  | decoder (d : Decoder)
  /-- A failure as an object: its name, its text and its detailed text. -/
  | failure (name plain full : String)
  deriving Inhabited

namespace Value

/-- The name of a value's type in messages. -/
def typeName : Value → String
  | .null => "NoneType"
  | .bool _ => "bool"
  | .int _ => "int"
  | .float _ => "float"
  | .text _ | .torn _ => "str"
  | .bytes _ => "bytes"
  | .buffer _ => "bytearray"
  | .list _ => "list"
  | .tuple _ => "tuple"
  | .dict _ => "dict"
  | .decimal _ => "Decimal"
  | .address _ => "Address"
  | .amount _ => "TokenAmount"
  | .choice c => c.family.name
  | .member family .. => family
  | .pair .. => "MetadataKVPair"
  | .signature .. => "Signature"
  | .poll .. => "PollConfig"
  | .payload variant _ => variant.name
  | .decoder d => d.typeName
  | .failure name .. => name

/-- A text as it is. -/
def text? : Value → Option Script
  | .text s => some (.whole s)
  | .torn t => some (.torn t)
  | _ => none

def isNull : Value → Bool
  | .null => true
  | _ => false

/-- Empty, zero and absent values count as false, all others as true. -/
def truthy : Value → Bool
  | .null => false
  | .bool b => b
  | .int n => n != 0
  | .float x => Binary.isNaN x || x != 0
  | .text s => !s.isEmpty
  | .bytes bs | .buffer bs => !bs.isEmpty
  | .list items | .tuple items => !items.isEmpty
  | .dict entries => !entries.isEmpty
  | .decimal d => !d.isZero
  | _ => true

/-- Bytes in either form. -/
def bytes? : Value → Option Bytes
  | .bytes bs | .buffer bs => some bs
  | _ => none

/-- An integer; a truth value counts as zero or one. -/
def integer? : Value → Option Int
  | .int n => some n
  | .bool b => some (if b then 1 else 0)
  | _ => none

/-- The value at a text key of a dictionary. -/
def lookup (key : String) : List (Value × Value) → Option Value
  | [] => none
  | (.text k, v) :: rest => if k = key then some v else lookup key rest
  | _ :: rest => lookup key rest

theorem lookup_nil (key : String) : lookup key [] = none := rfl

theorem lookup_cons_self (key : String) (v : Value) (rest : List (Value × Value)) :
    lookup key ((.text key, v) :: rest) = some v := by simp [lookup]

theorem lookup_cons_ne {key k : String} (v : Value) (rest : List (Value × Value)) (h : k ≠ key) :
    lookup key ((.text k, v) :: rest) = lookup key rest := by simp [lookup, h]

/-- The value that must stand at a key. -/
def require (key : String) : Value → Except Fault Value
  | .dict entries =>
    match lookup key entries with
    | some v => .ok v
    | none => .error (.missingKey key)
  | _ => .error .wrongType

/-- The value that may stand at a key. -/
def optional (key : String) : Value → Except Fault Value
  | .dict entries => .ok ((lookup key entries).getD .null)
  | _ => .error .noAttribute

/-- A dictionary whose keys are texts. -/
def record (fields : List (String × Value)) : Value :=
  .dict (fields.map fun (name, v) => (.text name, v))

mutual

/-- A value can be a dictionary key unless it holds a mutable part. -/
def hashable : Value → Bool
  | .list _ | .dict _ | .buffer _ => false
  | .decimal (.nan _ signaling _) => !signaling
  | .tuple items | .payload _ items => allHashable items
  | .pair key value | .poll key value => hashable key && hashable value
  | .signature r s v => hashable r && hashable s && hashable v
  | _ => true

def allHashable : List Value → Bool
  | [] => true
  | v :: rest => hashable v && allHashable rest

end

end Value

/-- A text as a value. -/
def Script.toValue : Script → Value
  | .whole s => .text s
  | .torn t => .torn t

theorem Script.toValue_injective {s t : Script} (h : s.toValue = t.toValue) : s = t := by
  cases s <;> cases t <;> cases h <;> rfl

theorem Script.toValue_ne_null (s : Script) : s.toValue ≠ .null := by
  cases s <;> exact Value.noConfusion

theorem Script.text?_toValue (s : Script) : s.toValue.text? = some s := by
  cases s <;> rfl

end LedgerClient
