import LedgerClient.Correlation
import LedgerClient.Trace.Event
import LedgerClient.Transport

/-!
# Actions

An action is a computation on a world: a script of the answers still to come, and the trace of the
events so far. It may fail, and what happened before it failed stays in the trace. A sleep only
leaves its event, unless it is the one that is interrupted.
-/

namespace LedgerClient

structure World (ρ : Type) where
  answers : List ρ
  events : List Event
  sleeps : Nat
  /-- The number of the sleep that is interrupted. -/
  interruptedSleep : Option Nat
  correlation : Correlation
  transport : Transport

abbrev Action (ρ α : Type) : Type := ExceptT Failure (StateM (World ρ)) α

namespace World

variable {ρ : Type}

/-- Every id that is drawn reads the same. -/
def anonymousId : String := "<id>"

def start (answers : List ρ) (interruptedSleep : Option Nat) : World ρ :=
  ⟨answers, [], 0, interruptedSleep, .start fun _ => anonymousId, .supplied⟩

def record (w : World ρ) (e : Event) : World ρ := { w with events := w.events ++ [e] }

end World

namespace Action

variable {ρ α : Type}

def perform (a : Action ρ α) (w : World ρ) : Result α × World ρ := a.run w

def fail (e : ClientError) : Action ρ α := throw (.client e)

def ofResult : Result α → Action ρ α
  | .ok a => pure a
  | .error f => throw f

def ofFault (x : Except Fault α) : Action ρ α := ofResult (Result.ofFault x)

def emit (e : Event) : Action ρ Unit := modify fun w => w.record e

def log (e : LogEntry) : Action ρ Unit := emit (.note (.entry e))

/-- Takes the next answer of the script. -/
def nextAnswer : Action ρ (Option ρ) := do
  let w ← get
  match w.answers with
  | [] => return none
  | a :: rest =>
    set { w with answers := rest }
    return some a

def sleep (seconds : Value) : Action ρ Unit := do
  emit (.sleep seconds)
  modify fun w => { w with sleeps := w.sleeps + 1 }
  let w ← get
  if w.interruptedSleep = some w.sleeps then throw (.fault .cancelled)

def updateCorrelation (f : Correlation → Correlation) : Action ρ Unit :=
  modify fun w => { w with correlation := f w.correlation }

/-- Makes a scope with an id of its own. -/
def makeScope (heading : Option String) : Action ρ Nat := do
  let w ← get
  let (n, c) := w.correlation.make heading
  set { w with correlation := c }
  return n

def leaveScope (n : Nat) : Action ρ Unit := do
  let w ← get
  let (result, c) := w.correlation.leave n
  set { w with correlation := c }
  ofFault result

/-- Runs an action in a scope, which is left however the action ends. -/
def inScope (n : Nat) (a : Action ρ α) : Action ρ α := do
  updateCorrelation fun c => c.enter n
  try a
  finally leaveScope n

/-- Runs an action in a scope of its own. -/
def withScope (heading : Option String) (a : Action ρ α) : Action ρ α := do
  let n ← makeScope heading
  inScope n a

/-! ## Records of an operation -/

/-- The number of an attempt and of all that are allowed; nothing if one of them is absent. -/
def progressText (attempt limit : Value) : Except Fault (List String) :=
  if attempt.isNull || limit.isNull then .ok []
  else do
    let a ← attempt.display
    let l ← limit.display
    return ["[" ++ a ++ "/" ++ l ++ "]"]

/-- Logs about an attempt of an operation: the id in force, the operation and the progress stand in
front of the text. Of two values under one name the later one counts, so a caller's own come last, and
a caller may file the record under another id. -/
def logAttempt (logger : String) (level : Int) (text operation : String) (attempt limit : Value)
    (more : List (String × Value)) : Action ρ Unit := do
  let w ← get
  let progress ← ofFault (progressText attempt limit)
  let message := " ".intercalate (w.correlation.mark ++ ["[" ++ operation ++ "]"] ++ progress ++ [text])
  log ⟨⟨logger, level, message⟩,
    [("operation", .text operation), ("attempt", attempt), ("max_attempts", limit)] ++ more,
    some ((more.lookup "correlation_id").getD (ClientError.optionalText w.correlation.current))⟩

end Action

end LedgerClient
