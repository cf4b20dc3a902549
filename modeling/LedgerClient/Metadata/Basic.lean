import LedgerClient.Value.Conversion

/-!
# Metadata entries

Additional metadata is a sequence of key and value pairs. A caller may give a dictionary, whose
entries are taken as they are, or a list of pairs and of dictionaries with the entries `key` and
`value`, which are turned into text.
-/

namespace LedgerClient.Metadata

def fieldName : String := "additional_metadata"

/-- A key and a value, both as text. -/
structure Entry where
  key : Script
  value : Script
  deriving DecidableEq, Repr

def Entry.toValue (e : Entry) : Value := .pair e.key.toValue e.value.toValue

def Entry.ofDict (data : Value) : Except Fault Entry := do
  let key ← (← data.require "key").script
  let value ← (← data.require "value").script
  return ⟨key, value⟩

def element (item : Value) : Result Value :=
  match item with
  | .pair .. => .ok item
  | .dict _ => do
    let e ← Result.ofFault (Entry.ofDict item)
    return e.toValue
  | _ => .failExpected fieldName "MetadataKVPair or dict" item

def elements : List Value → Result (List Value)
  | [] => .ok []
  | item :: rest => do
    let p ← element item
    let others ← elements rest
    return p :: others

/-- The pairs that a caller's value stands for; empty values stand for none. -/
def pairs (items : Value) : Result (List Value) :=
  if !items.truthy then .ok []
  else match items with
    | .dict entries => .ok (entries.map fun (k, v) => .pair k v)
    | .list xs | .tuple xs => elements xs
    | _ => .failExpected fieldName "dict or sequence" items

theorem elements_nil : elements [] = .ok [] := rfl

theorem element_pair (k v : Value) : element (.pair k v) = .ok (.pair k v) := rfl

end LedgerClient.Metadata
