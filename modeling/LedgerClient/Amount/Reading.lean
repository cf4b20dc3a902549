import LedgerClient.Amount.Basic
import LedgerClient.Value.Conversion

/-!
# Reading amounts and computing with them

An amount is read from an integer, from ASCII digits between blanks, or from a number of whole
tokens that is scaled by the token's decimal places. Scaling never rounds to an integer: a
number with more places is refused.
-/

namespace LedgerClient.TokenAmount

def ofInt (n : Int) : Result TokenAmount :=
  match ofInt? n with
  | some a => .ok a
  | none => do
    let shown ← Result.ofFault (Value.integerText n)
    .fail (.outOfRange "value" shown 256)

theorem ofInt_units (a : TokenAmount) : ofInt (a.units : Int) = .ok a := by
  simp [ofInt, ofInt?_units]

/-- Accepts integers other than truth values. -/
def ofValue (v : Value) : Result TokenAmount :=
  match v with
  | .int n => ofInt n
  | _ => .failExpected "value" "int" v

/-- ASCII digits and nothing else. -/
def wireDigits? (s : List Char) : Option (List Nat) :=
  if s.isEmpty then none else s.mapM Text.asciiDigit?

def ofText (s : String) : Result TokenAmount :=
  match wireDigits? (Text.trimChars s.toList) with
  | none => .fail (.invalidField "value" (.notDecimal (Text.quoted s)))
  | some digits =>
    if Integer.digitLimit < digits.length then .error (.fault .badValue)
    else ofInt (Integer.ofDigits 10 digits)

/-- A lone half is no digit. -/
def ofTorn (t : Torn) : Result TokenAmount := .fail (.invalidField "value" (.notDecimal t.quoted))

/-- Accepts text only. -/
def parse (v : Value) : Result TokenAmount :=
  match v with
  | .text s => ofText s
  | _ => .failShowing v fun shown => .invalidField "value" (.notDecimal shown)

/-- Accepts an amount, text or an integer. -/
def coerce (v : Value) : Result TokenAmount :=
  match v with
  | .amount a => .ok a
  | .text s => ofText s
  | .torn t => ofTorn t
  | _ => ofValue v

theorem coerce_amount (a : TokenAmount) : coerce (.amount a) = .ok a := rfl

/-! ## Whole tokens -/

def decimalOf (amount : Value) : Result Decimal :=
  match amount with
  | .float _ => .fail (.invalidField "value" .floatAmount)
  | .decimal d => .ok d
  | _ => do
    let s ← Result.ofFault amount.display
    match Decimal.read? s with
    | some d => .ok d
    | none => .failShowing amount fun shown => .invalidField "value" (.notNumber shown)

def scaled (d : Decimal) (power : Int) : Result Decimal :=
  match d.scale Decimal.Format.units power with
  | .ok r => .ok r
  | .error signal => .error (.fault (.ofSignal signal))

/-- Scales by a number of places: an integer, or a decimal with the exponent 0. A number of places
that is not a number makes the result none either. -/
def scaledBy (d : Decimal) (places : Value) : Result Decimal :=
  match places with
  | .decimal (.finite negative n 0) => scaled d (if negative then -(n : Int) else n)
  | .decimal (.nan negative false payload) => .ok (.nan negative false payload)
  | .decimal _ => .error (.fault (.ofSignal .invalidOperation))
  | _ =>
    match places.integer? with
    | some n => scaled d n
    | none => .error (.fault .wrongType)

theorem scaledBy_int (d : Decimal) (n : Int) : scaledBy d (.int n) = scaled d n := rfl

/-- The opposite number of places. -/
def oppositePlaces (places : Value) : Value :=
  match places with
  | .decimal (.finite negative n exponent) => .decimal (.finite (!negative) n exponent)
  | .decimal _ => places
  | _ =>
    match places.integer? with
    | some n => .int (-n)
    | none => places

/-- The amount of a number of whole tokens. -/
def fromUnits (amount decimals : Value) : Result TokenAmount := do
  let d ← decimalOf amount
  if !d.isFinite then
    Result.failShowing amount fun shown => .invalidField "value" (.notFinite shown)
  else
    let raw ← scaledBy d decimals
    if raw.isIntegral then ofInt raw.truncate
    else
      let shown ← Result.ofFault amount.display
      Result.failDisplaying decimals fun n => .invalidField "value" (.tooPrecise shown n)

/-- The amount as a number of whole tokens. -/
def toUnits (a : TokenAmount) (decimals : Value) : Result Decimal :=
  scaledBy (.ofInt a.units) (oppositePlaces decimals)

/-! ## Arithmetic -/

inductive Comparison where
  | lt
  | le
  | gt
  | ge
  deriving DecidableEq, Repr

def Comparison.holds : Comparison → Nat → Nat → Bool
  | .lt, a, b => decide (a < b)
  | .le, a, b => decide (a ≤ b)
  | .gt, a, b => decide (b < a)
  | .ge, a, b => decide (b ≤ a)

inductive Operation where
  | add
  | sub
  | compare (c : Comparison)
  | equal
  deriving DecidableEq, Repr

/-- What one operation answers: nothing, a verdict, or a failure. -/
inductive Answer where
  | done
  | verdict (b : Bool)
  | failed (f : Failure)

/-- Applies an operation to an amount. Only an amount can be added, subtracted or ordered, and a
failing operation leaves the amount as it was. -/
def step (a : TokenAmount) (op : Operation) (operand : Value) : TokenAmount × Answer :=
  let update (r : Result TokenAmount) : TokenAmount × Answer :=
    match r with
    | .ok b => (b, .done)
    | .error f => (a, .failed f)
  match op, operand with
  | .add, .amount b => update (ofInt ((a.units : Int) + b.units))
  | .sub, .amount b => update (ofInt ((a.units : Int) - b.units))
  | .compare c, .amount b => (a, .verdict (c.holds a.units b.units))
  | .equal, .amount b => (a, .verdict (decide (a.units = b.units)))
  | .equal, _ => (a, .verdict false)
  | _, _ => (a, .failed (.fault .wrongType))

/-- The states and answers of a run of operations. An operand may be unreadable itself. -/
def run (a : TokenAmount) : List (Operation × Result Value) → List (TokenAmount × Answer)
  | [] => []
  | (op, operand) :: rest =>
    let (next, answer) :=
      match operand with
      | .ok v => step a op v
      | .error f => (a, .failed f)
    (next, answer) :: run next rest

theorem run_nil (a : TokenAmount) : run a [] = [] := rfl

theorem run_length (a : TokenAmount) (ops : List (Operation × Result Value)) :
    (run a ops).length = ops.length := by
  induction ops generalizing a with
  | nil => rfl
  | cons op rest ih => simp [run, ih]

end LedgerClient.TokenAmount
