import LedgerClient.Trace.Action
import LedgerClient.Value.Conversion
import LedgerClient.Value.Number

/-!
# Waiting for a final status

The status of a transaction is asked for again and again, with a pause in between, until it is
final or the attempts are used up. A query that fails ends the waiting at once.
-/

namespace LedgerClient.Confirmation

variable {ρ : Type}

def logger : String := "onemoney_client.infra.retry"

/-- The first ten elements of a value that has an order. -/
def firstTen : Value → Except Fault Value
  | .text s => .ok (.text (String.ofList (s.toList.take 10)))
  | .torn t => .ok (Script.ofGlyphs (t.glyphs.take 10)).toValue
  | .bytes bs => .ok (.bytes (bs.take 10))
  | .buffer bs => .ok (.buffer (bs.take 10))
  | .list items => .ok (.list (items.take 10))
  | .tuple items => .ok (.tuple (items.take 10))
  | _ => .error .wrongType

def operationText (hash : Value) : Except Fault String := do
  let start ← firstTen hash
  let shown ← start.display
  return "confirm(" ++ shown ++ ")"

def checkLimits (attempts interval : Value) : Result Unit := do
  if ← Result.ofFault (attempts.isBelow 1) then
    Result.failDisplaying attempts fun shown => .invalidConfig "max_attempts" (.below 1 shown)
  else if ← Result.ofFault (interval.isBelow 0) then
    Result.failDisplaying interval fun shown => .invalidConfig "interval" (.below 0 shown)

/-- The number of attempts is counted out, so it must be an integer. -/
def attemptCount (attempts : Value) : Except Fault Nat :=
  match attempts.integer? with
  | some n => .ok n.toNat
  | none => .error .wrongType

structure Watch where
  hash : Value
  limit : Value
  interval : Value
  operation : String

namespace Watch

def note (w : Watch) (level : Int) (attempt : Value) (outcome : String) : Action ρ Unit := do
  let hash ← Action.ofFault w.hash.display
  Action.logAttempt logger level ("Transaction " ++ hash ++ " " ++ outcome) w.operation attempt w.limit
    [("tx_hash", w.hash)]

/-- Polls as often as attempts are left; `done` have been made. -/
def poll (w : Watch) (fetch : Value → Action ρ TransactionStatus) :
    Nat → Nat → Action ρ (Option TransactionStatus)
  | _, 0 => pure none
  | done, left + 1 => do
    let status ← fetch w.hash
    let attempt := Value.int (done + 1 : Nat)
    if status.isTerminal then
      w.note 20 attempt ("is " ++ status.label)
      return some status
    else
      w.note 10 attempt ("still " ++ status.label)
      if 0 < left then Action.sleep w.interval
      w.poll fetch (done + 1) left

end Watch

/-- Waits for a final status, all records under one correlation id. -/
def await (fetch : Value → Action ρ TransactionStatus) (hash attempts interval : Value) :
    Action ρ TransactionStatus := do
  Action.ofResult (checkLimits attempts interval)
  let operation ← Action.ofFault (operationText hash)
  let count ← Action.ofFault (attemptCount attempts)
  let w : Watch := ⟨hash, attempts, interval, operation⟩
  let final ← Action.withScope (some "poll") do
    match ← w.poll fetch 0 count with
    | some status => return some status
    | none =>
      let shown ← Action.ofFault attempts.display
      w.note 30 attempts ("not final after " ++ shown ++ " attempts")
      return none
  match final with
  | some status => return status
  | none => Action.fail (← Action.ofFault (ClientError.notConfirmed hash attempts interval))

/-- Asks a script for the status; where the script is silent the status is pending. -/
def fetchScripted (hash : Value) : Action (Result TransactionStatus) TransactionStatus := do
  Action.emit (.fetch hash)
  match ← Action.nextAnswer with
  | some answer => Action.ofResult answer
  | none => return .pending

end LedgerClient.Confirmation
