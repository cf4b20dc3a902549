import LedgerClient.Address.Reading
import LedgerClient.Amount.Reading
import LedgerClient.Metadata.Basic
import LedgerClient.Signature.Basic
import LedgerClient.Text.LetterCase

/-!
# Payloads

A payload is a variant with a value for each field of its layout. When it is built, addresses,
amounts, choices and metadata are brought to one form whatever notation the caller used; integers
and texts are left for the encoder to judge. On the wire a payload is an object of texts and
numbers.
-/

namespace LedgerClient

namespace Choice

/-- A choice is found by its label or identifier in any case. -/
def ofText (family : Family) (s : String) : Result Choice :=
  let name := Text.lower s
  match family.members.find? fun c => Text.lower c.label = name || Text.lower c.identifier = name with
  | some c => .ok c
  | none => .fail (.invalidField family.name (.unknownChoice s family))

/-- Only text names a choice. -/
def ofValue (family : Family) (v : Value) : Result Choice :=
  match v with
  | .text s => ofText family s
  | .torn t => ofText family t.mended
  | _ => .error (.fault .noAttribute)

end Choice

/-- The values are in the order of the variant's layout. -/
structure Payload where
  variant : Variant
  values : List Value

namespace Payload

def toValue (p : Payload) : Value := .payload p.variant p.values

/-- The value of a named field, absent when the variant has no such field. -/
def field? (p : Payload) (name : String) : Option Value :=
  ((p.variant.layout.map Field.name).zip p.values).lookup name

/-- Brings a caller's value to the form that the field keeps. An absent value stays absent. -/
def coerceField (f : Field) (v : Value) : Result Value :=
  match f.kind, v with
  | .metadata, _ => do
    let pairs ← Metadata.pairs v
    return .tuple pairs
  | _, .null => .ok .null
  | .address, _ => do
    let a ← Address.coerce f.name v
    return .address a
  | .amount, _ => do
    let a ← TokenAmount.coerce v
    return .amount a
  | .choice family, .text s => do
    let c ← Choice.ofText family s
    return .choice c
  | .choice family, .torn t => do
    let c ← Choice.ofText family t.mended
    return .choice c
  | _, _ => .ok v

def coerceFields : List Field → List Value → Result (List Value)
  | f :: fields, v :: values => do
    let first ← coerceField f v
    let others ← coerceFields fields values
    return first :: others
  | _, _ => .ok []

/-- The value given for a field; an optional field may be left out. -/
def argument (given : List (String × Value)) (f : Field) : Option Value :=
  match given.lookup f.name with
  | some v => some v
  | none => if f.optional then some .null else none

/-- Builds a payload from named values. Unknown names and missing fields are refused before any
value is looked at. -/
def build (variant : Variant) (given : List (String × Value)) : Result Payload :=
  let layout := variant.layout
  if given.any fun g => !(layout.any fun f => f.name = g.1) then .error (.fault .wrongType)
  else match layout.mapM (argument given) with
    | none => .error (.fault .wrongType)
    | some values => do
      let coerced ← coerceFields layout values
      return ⟨variant, coerced⟩

/-! ## Wire form -/

mutual

def wireValue : Value → Value
  | .address a => .text a.checksum
  | .amount a => .text a.wire
  | .choice c => .text c.label
  | .member _ _ value => value
  | .pair key value => Value.record [("key", key), ("value", value)]
  | .list items | .tuple items => .list (wireValues items)
  | v => v

def wireValues : List Value → List Value
  | [] => []
  | v :: rest => wireValue v :: wireValues rest

end

def wireEntries (p : Payload) : List (String × Value) :=
  (p.variant.layout.map Field.name).zip (p.values.map wireValue)

def toWire (p : Payload) : Value := Value.record p.wireEntries

/-- The body of a signed request: the fields and the signature side by side. -/
def requestOf (p : Payload) (signature : Value) : Value :=
  Value.record (p.wireEntries ++ [("signature", signature)])

def toRequest (p : Payload) (sig : Signature) : Value := p.requestOf sig.toDict

end Payload

end LedgerClient
