import LedgerClient.Payload.Basic
import LedgerClient.Rlp
import LedgerClient.Text.Utf8

/-!
# Canonical bytes of a payload

The fields are encoded in layout order: integers as minimal scalars, addresses as twenty bytes, texts and
choices as UTF-8, a member of any other enumeration by its value, metadata as a list of pairs. An optional
text is the scalar zero when absent, and otherwise the scalar one followed by the text. The first field that
does not fit its kind is the error; an item too long for its header is one after all fields.
-/

namespace LedgerClient.Payload

def failOutOfRange {α : Type} (name : String) (n : Int) (bits : Nat) : Result α := do
  let shown ← Result.ofFault (Value.integerText n)
  .fail (.outOfRange name shown bits)

/-- An unsigned integer of the given width; an amount counts as its number of units. -/
def unsigned (name : String) (v : Value) (bits : Nat) : Result Nat :=
  let inRange (n : Int) : Result Nat :=
    if 0 ≤ n ∧ n.toNat < 2 ^ bits then .ok n.toNat else failOutOfRange name n bits
  match v with
  | .amount a => inRange a.units
  | .int n => inRange n
  | _ => .failExpected name "integer" v

def textBytes (name : String) (v : Value) : Result Bytes :=
  match v with
  | .text s => .ok (Text.utf8 s)
  | .torn _ => .error (.fault .unencodable)
  | _ => .failExpected name "str" v

def pairItem (name : String) (v : Value) : Result Rlp.Item :=
  match v with
  | .pair key value => do
    let k ← textBytes (name ++ ".key") key
    let x ← textBytes (name ++ ".value") value
    return .list [.bytes k, .bytes x]
  | _ => .failExpected name "MetadataKVPair" v

def pairItems (name : String) : List Value → Result (List Rlp.Item)
  | [] => .ok []
  | v :: rest => do
    let item ← pairItem name v
    let others ← pairItems name rest
    return item :: others

/-- The items that a field with a value contributes. -/
def presentItems (name : String) (kind : FieldKind) (v : Value) : Result (List Rlp.Item) :=
  match kind with
  | .word => do
    let n ← unsigned name v 64
    return [.ofNat n]
  | .amount => do
    let n ← unsigned name v 256
    return [.ofNat n]
  | .address => do
    let a ← Address.coerce name v
    return [.bytes a.bytes]
  | .text => do
    let bs ← textBytes name v
    return [.bytes bs]
  | .choice _ =>
    match v with
    | .choice c => .ok [.bytes (Text.utf8 c.label)]
    | .member _ _ value => do
      let bs ← textBytes name value
      return [.bytes bs]
    | _ => .failExpected name "enum member" v
  | .metadata =>
    match v with
    | .tuple pairs | .list pairs => do
      let items ← pairItems name pairs
      return [.list items]
    | _ => .error (.fault .wrongType)
  | .optionalText => do
    let bs ← textBytes name v
    return [.ofNat 1, .bytes bs]

def fieldItems (f : Field) (v : Value) : Result (List Rlp.Item) :=
  match v with
  | .null =>
    if f.kind = .optionalText then .ok [.ofNat 0] else .fail (.missingField f.name)
  | _ => presentItems f.name f.kind v

def itemsOf : List Field → List Value → Result (List Rlp.Item)
  | f :: fields, v :: values => do
    let first ← fieldItems f v
    let others ← itemsOf fields values
    return first ++ others
  | _, _ => .ok []

def items (p : Payload) : Result (List Rlp.Item) := itemsOf p.variant.layout p.values

/-- The items of a variant as they stand in the bytes: in one list, or bare. -/
def frame (variant : Variant) (items : List Rlp.Item) : List Rlp.Item :=
  if variant.isWrapped then [.list items] else items

/-- The failure of an item that is too long for a header. -/
def tooLong : Failure := .fault (.outside (.named "EncodingError" "Item too big to encode"))

/-- The bytes that are signed. -/
def encode (p : Payload) : Result Bytes := do
  let items ← p.items
  let framed := frame p.variant items
  if Rlp.fitsAll framed then .ok (Rlp.encodeAll framed) else .error tooLong

/-- The digest that is signed. -/
def signatureHash (p : Payload) : Result Bytes := do
  let bytes ← p.encode
  return Keccak.digest bytes

/-- The payload that a value is. -/
def ofValue (v : Value) : Result Payload :=
  match v with
  | .payload variant values => .ok ⟨variant, values⟩
  | _ => .fail (.unsupportedPayload v.typeName)

theorem ofValue_toValue (p : Payload) : ofValue p.toValue = .ok p := rfl

theorem itemsOf_nil (values : List Value) : itemsOf [] values = .ok [] := rfl

end LedgerClient.Payload
