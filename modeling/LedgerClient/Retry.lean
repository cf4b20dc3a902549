import LedgerClient.Trace.Action
import LedgerClient.Value.Arithmetic

/-!
# Repeating an operation

An operation is repeated while it fails with a transient error and attempts are left. The wait
before an attempt grows by a factor and is capped. Any other failure ends the run at once, and so
does the last transient one.
-/

namespace LedgerClient

structure RetryConfig where
  maxAttempts : Value
  initialDelay : Value
  maxDelay : Value
  multiplier : Value

namespace RetryConfig

def standard : RetryConfig := ⟨.int 3, .float 0.1, .float 60.0, .float 2.0⟩

def settingNames : List String := ["max_attempts", "initial_delay", "max_delay", "backoff_multiplier"]

/-- Settings given by name, the others standard. -/
def build (given : List (String × Value)) : Result RetryConfig :=
  if given.any fun g => !settingNames.contains g.1 then .error (.fault .wrongType)
  else
    let setting (name : String) (default : Value) := (given.lookup name).getD default
    .ok ⟨setting "max_attempts" standard.maxAttempts, setting "initial_delay" standard.initialDelay,
      setting "max_delay" standard.maxDelay, setting "backoff_multiplier" standard.multiplier⟩

theorem build_nil : build [] = .ok standard := rfl

/-- The seconds before an attempt; attempts count from zero, and the first waits for nothing. -/
def delay (c : RetryConfig) (attempt : Int) : Except Fault Value :=
  if attempt ≤ 0 then .ok (.float 0.0)
  else do
    let growth ← c.multiplier.power (attempt - 1).toNat
    let wait ← c.initialDelay.times growth
    wait.smaller c.maxDelay

theorem delay_first (c : RetryConfig) : c.delay 0 = .ok (.float 0.0) := rfl

/-- Another attempt is left after that many. -/
def allows (c : RetryConfig) (attempts : Int) : Except Fault Bool := c.maxAttempts.isAbove attempts

end RetryConfig

namespace Retry

variable {ρ α : Type}

def logger : String := "onemoney_client.infra.retry"

/-- The failure of an operation that is called once too often. -/
def exhausted : Failure := .fault (.outside (.named "RuntimeError" "no outcome left"))

/-- Waits for an attempt and starts it. -/
def startAttempt (c : RetryConfig) (before : Nat) : Action ρ Unit := do
  let wait ← Action.ofFault (c.delay before)
  if ← Action.ofFault (wait.isAbove 0) then Action.sleep wait
  Action.emit .call

def note (c : RetryConfig) (operation : String) (attempt : Nat) (level : Int) (text : String)
    (kind : Option String) : Action ρ Unit :=
  Action.logAttempt logger level text operation (.int attempt) c.maxAttempts
    (kind.toList.map fun k => ("error_type", .text k))

def noteSuccess (c : RetryConfig) (operation : String) (attempt : Nat) : Action ρ Unit :=
  if 1 < attempt then
    note c operation attempt 20 ("Succeeded after " ++ toString attempt ++ " attempts") none
  else pure ()

/-- The error is transient, and another attempt is left. -/
def isWorthwhile (c : RetryConfig) (attempt : Nat) (e : ClientError) : Except Fault Bool :=
  if e.isRetryable then c.allows attempt else .ok false

def noteError (c : RetryConfig) (operation : String) (attempt : Nat) (e : ClientError) (again : Bool) :
    Action ρ Unit :=
  if again then note c operation attempt 30 ("Recoverable error: " ++ e.text) (some "recoverable")
  else
    note c operation attempt 40 ("Failed: " ++ e.text)
      (some (if e.isRetryable then "exhausted" else "fatal"))

/-- Continues a run; the outcomes of the operation's calls are given in order. -/
def continueRun (c : RetryConfig) (operation : String) : Nat → List (Result α) → Action ρ α
  | before, [] => do
    startAttempt c before
    throw exhausted
  | before, outcome :: rest => do
    startAttempt c before
    match outcome with
    | .ok a =>
      noteSuccess c operation (before + 1)
      return a
    | .error (.client e) =>
      let again ← Action.ofFault (isWorthwhile c (before + 1) e)
      noteError c operation (before + 1) e again
      if again then continueRun c operation (before + 1) rest else throw (.client e)
    | .error f => throw f

def run (c : RetryConfig) (operation : String) (outcomes : List (Result α)) : Action ρ α :=
  continueRun c operation 0 outcomes

end Retry

end LedgerClient
