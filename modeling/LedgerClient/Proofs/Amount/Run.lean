import LedgerClient.Proofs.Amount.Units

/-!
# Runs of operations on an amount

A run keeps an account of what it accepted: its state is the start with every accepted addition and
without every accepted subtraction, in the integers. A step is accepted exactly when its own result is in
range; whatever else is tried leaves the state as it was.
-/

namespace LedgerClient.TokenAmount

/-- An operation with its operand, which may be unreadable. -/
abbrev Step := Operation × Result Value

/-! ## One step -/

/-- The result that an addition or a subtraction has in the integers. -/
def exactResult (op : Operation) (a b : TokenAmount) : Option Int :=
  match op with
  | .add => some (a.units + b.units)
  | .sub => some (a.units - b.units)
  | .compare _ | .equal => none

/-- What a comparison says about two integers. -/
def Comparison.Says : Comparison → Int → Int → Prop
  | .lt, m, n => m < n
  | .le, m, n => m ≤ n
  | .gt, m, n => n < m
  | .ge, m, n => n ≤ m

/-- The law of one step: the operation and the operand settle the next state and the answer. -/
inductive Settles (a : TokenAmount) : Operation → Value → TokenAmount → Answer → Prop where
  | accepted {op : Operation} {b next : TokenAmount} {n : Int} (hn : exactResult op a b = some n)
      (hrange : 0 ≤ n ∧ n ≤ 2 ^ 256 - 1) (hnext : (next.units : Int) = n) :
      Settles a op (.amount b) next .done
  | refused {op : Operation} {b : TokenAmount} {n : Int} (hn : exactResult op a b = some n)
      (hrange : ¬(0 ≤ n ∧ n ≤ 2 ^ 256 - 1)) :
      Settles a op (.amount b) a
        (.failed (.client (.encoding (.outOfRange "value" (Integer.decimal n) 256))))
  | compared (c : Comparison) (b : TokenAmount) {verdict : Bool}
      (hverdict : verdict = true ↔ c.Says a.units b.units) :
      Settles a (.compare c) (.amount b) a (.verdict verdict)
  | equal (b : TokenAmount) {verdict : Bool} (hverdict : verdict = true ↔ (a.units : Int) = b.units) :
      Settles a .equal (.amount b) a (.verdict verdict)
  | unequal {v : Value} (hv : ∀ b, v ≠ .amount b) : Settles a .equal v a (.verdict false)
  | mistyped {op : Operation} {v : Value} (hv : ∀ b, v ≠ .amount b) (hop : op ≠ .equal) :
      Settles a op v a (.failed (.fault .wrongType))

/-- The next state and the answer of a step; an unreadable operand fails for itself. -/
def attempt (a : TokenAmount) : Step → TokenAmount × Answer
  | (op, .ok v) => a.step op v
  | (_, .error f) => (a, .failed f)

/-- The state behind a run. -/
def final (a : TokenAmount) (steps : List Step) : TokenAmount :=
  ((run a steps).getLast?.map Prod.fst).getD a

/-- What a step moved by an operation: the units of its operand, if it was accepted. -/
def moved (op : Operation) (s : Step) : Answer → Nat
  | .done =>
    match s with
    | (other, .ok (.amount b)) => if other = op then b.units else 0
    | _ => 0
  | .verdict _ | .failed _ => 0

/-- What a run moved by an operation in all its accepted steps. -/
def total (op : Operation) : List Step → List (TokenAmount × Answer) → Nat
  | s :: steps, state :: states => moved op s state.2 + total op steps states
  | _, _ => 0

end LedgerClient.TokenAmount
