import LedgerClient.Value.Basic
import LedgerClient.Number.Decimal.Arithmetic

/-!
# Equality of values

Numbers of all types are equal when they stand for the same number, byte strings in either form
when they hold the same bytes, containers and records when their parts are. To ask a decimal that
signals for its value is invalid. A dictionary has one entry for equal keys.
-/

namespace LedgerClient.Value

/-- The number that a value stands for; floats are decimals, too. -/
def number? : Value → Option Decimal
  | .float x => some (Decimal.ofFloat x)
  | .decimal d => some d
  | v => v.integer?.map Decimal.ofInt

def isSignaling : Value → Bool
  | .decimal (.nan _ true _) => true
  | _ => false

/-- Equality of values without parts. -/
def equalScalars (a b : Value) : Except Fault Bool :=
  match a.number?, b.number? with
  | some x, some y =>
    if a.isSignaling || b.isSignaling then .error (.plain .decimalInvalid)
    else .ok (Decimal.compare? x y == some .eq)
  | _, _ =>
    match a.bytes?, b.bytes? with
    | some x, some y => .ok (x = y)
    | _, _ => .ok false

/-- The entry whose key passes a test. -/
def findEntry (test : Value → Except Fault Bool) :
    List (Value × Value) → Except Fault (Option Value)
  | [] => .ok none
  | (k, v) :: rest => do
    if ← test k then return some v
    findEntry test rest

mutual

def equal : Value → Value → Except Fault Bool
  | .null, .null => .ok true
  | .text a, .text b => .ok (a = b)
  | .torn a, .torn b => .ok (a = b)
  | .address a, .address b => .ok (a = b)
  | .amount a, .amount b => .ok (a = b)
  | .choice a, .choice b => .ok (a = b)
  | .member f a _, .member g b _ => .ok (decide (f = g ∧ a = b))
  | .decoder a, .decoder b => .ok (a = b)
  | .list xs, .list ys => equalItems xs ys
  | .tuple xs, .tuple ys => equalItems xs ys
  | .dict xs, .dict ys => if xs.length = ys.length then equalEntries xs ys else .ok false
  | .pair k v, .pair l w => do
    if ← equal k l then equal v w else return false
  | .poll a i, .poll b j => do
    if ← equal a b then equal i j else return false
  | .signature r s v, .signature t u w => do
    if ← equal r t then
      if ← equal s u then equal v w else return false
    else return false
  | .payload p xs, .payload q ys => if p = q then equalItems xs ys else .ok false
  | a, b => equalScalars a b

def equalItems : List Value → List Value → Except Fault Bool
  | [], [] => .ok true
  | x :: xs, y :: ys => do
    if ← equal x y then equalItems xs ys else return false
  | _, _ => .ok false

/-- Every entry of the first list has its like in the second. -/
def equalEntries : List (Value × Value) → List (Value × Value) → Except Fault Bool
  | [], _ => .ok true
  | (k, v) :: rest, entries => do
    match ← findEntry (fun other => equal k other) entries with
    | some w => if ← equal v w then equalEntries rest entries else return false
    | none => return false

end

theorem equal_text (a b : String) : equal (.text a) (.text b) = .ok (decide (a = b)) := by
  simp [equal]

/-! ## Keys -/

def isNaN : Value → Bool
  | .float x => Binary.isNaN x
  | _ => false

/-- Equal keys are one key. What is no number equals nothing, but as a key it is itself. -/
def sameKey (a b : Value) : Bool := (a.isNaN && b.isNaN) || (equal a b).toOption.getD false

/-- Writes an entry: a known key keeps its place and spelling and takes the new value. -/
def insertEntry (key value : Value) : List (Value × Value) → List (Value × Value)
  | [] => [(key, value)]
  | (k, v) :: rest => if sameKey k key then (k, value) :: rest else (k, v) :: insertEntry key value rest

/-- The dictionary of entries in their order. Every key must be hashable, and each one that is no
number is a key of its own. -/
def collect (entries : List (Value × Value)) : Except Fault (List (Value × Value)) :=
  if entries.any fun e => !e.1.hashable then .error .wrongType
  else .ok (entries.foldl
    (fun done e => if e.1.isNaN then done ++ [e] else insertEntry e.1 e.2 done) [])

theorem collect_nil : collect [] = .ok [] := rfl

theorem insertEntry_nil (key value : Value) : insertEntry key value [] = [(key, value)] := rfl

end LedgerClient.Value
