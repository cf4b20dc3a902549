import LedgerClient.Value.Equality
import LedgerClient.Value.Text

/-!
# The order of values

Integers, truth values, floats and decimals are ordered by the numbers they stand for, exactly.
A float that is no number is unordered, such a decimal cannot be compared at all, and neither can
a value that is no number by its type. Texts, byte strings and lists are ordered by their first
difference.
-/

namespace LedgerClient.Value

/-- The order of a value relative to an integer; `none` inside when it is unordered. -/
def orderWith (v : Value) (n : Int) : Except Fault (Option Ordering) :=
  match v with
  | .float x => .ok (Binary.compareInt? x n)
  | .decimal d =>
    match d.compareInt? n with
    | some o => .ok (some o)
    | none => .error (.plain .decimalInvalid)
  | _ =>
    match v.integer? with
    | some m => .ok (some (compare m n))
    | none => .error .wrongType

def isBelow (v : Value) (n : Int) : Except Fault Bool := do
  let o ← v.orderWith n
  return o == some .lt

def isAbove (v : Value) (n : Int) : Except Fault Bool := do
  let o ← v.orderWith n
  return o == some .gt

def isAtMost (v : Value) (n : Int) : Except Fault Bool := do
  let o ← v.orderWith n
  return o == some .lt || o == some .eq

/-- Whether the value stands for the given integer. -/
def equalsInt (v : Value) (n : Int) : Except Fault Bool :=
  match v.integer? with
  | some m => .ok (decide (m = n))
  | none => equal v (.int n)

theorem isBelow_int (m n : Int) : isBelow (.int m) n = .ok (compare m n == .lt) := rfl

theorem equalsInt_int (m n : Int) : equalsInt (.int m) n = .ok (decide (m = n)) := rfl

theorem equalsInt_text (s : String) (n : Int) : equalsInt (.text s) n = .ok false := by
  simp [equalsInt, equal, equalScalars, number?, integer?, bytes?]

/-! ## Two values -/

def isDecimal : Value → Bool
  | .decimal _ => true
  | _ => false

/-- The order of two numbers; `none` inside when a float is unordered. -/
def orderNumbers (a b : Value) : Except Fault (Option Ordering) :=
  match a.number?, b.number? with
  | some x, some y =>
    match Decimal.compare? x y with
    | some o => .ok (some o)
    | none => if a.isDecimal || b.isDecimal then .error (.plain .decimalInvalid) else .ok none
  | _, _ => .error .wrongType

def isLessScalar (a b : Value) : Except Fault Bool :=
  match a.text?, b.text? with
  | some x, some y => .ok (decide (x.codes < y.codes))
  | _, _ =>
    match a.bytes?, b.bytes? with
    | some x, some y => .ok (decide (x < y))
    | _, _ => do
      let o ← orderNumbers a b
      return o == some .lt

mutual

def isLess : Value → Value → Except Fault Bool
  | .text a, .text b => .ok (decide (a < b))
  | .list xs, .list ys => isLessItems xs ys
  | .tuple xs, .tuple ys => isLessItems xs ys
  | a, b => isLessScalar a b

def isLessItems : List Value → List Value → Except Fault Bool
  | [], ys => .ok (!ys.isEmpty)
  | _ :: _, [] => .ok false
  | x :: xs, y :: ys => do
    if ← equal x y then isLessItems xs ys else isLess x y

end

/-- The smaller of two values, the first unless the second is really smaller. -/
def smaller (a b : Value) : Except Fault Value := do
  if ← isLess b a then return b else return a

end LedgerClient.Value
