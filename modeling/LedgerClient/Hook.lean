import LedgerClient.Trace.Action

/-!
# Hooks

A hook is told about every request before it is sent and about every response after it arrived. It
leaves notes, and it may fail; then the hooks behind it are not told, and the failure is that of the
request.
-/

namespace LedgerClient

/-- What a hook does when it is told something. -/
structure Reaction where
  notes : List Note
  failure : Option Failure

structure Hook where
  beforeRequest : (method url : String) → (body : Option String) → Reaction
  afterResponse : (method url : String) → (status : Int) → (body : String) → Reaction

inductive Moment where
  | before
  | after
  deriving DecidableEq, Repr

namespace Hook

def breakdown : Failure := .fault (.outside (.named "RuntimeError" "hook"))

def failureAt (failing : Option Moment) (m : Moment) : Option Failure :=
  if failing = some m then some breakdown else none

/-- A hook that writes down what it is told. It may be set to fail at one of the two moments. -/
def recording (place : Nat) (failing : Option Moment) : Hook where
  beforeRequest method url body := ⟨[.sawRequest place method url body], failureAt failing .before⟩
  afterResponse method url status body :=
    ⟨[.sawResponse place method url status body], failureAt failing .after⟩

/-! ## Logging -/

def logger : String := "onemoney_client.infra.hooks"

def truncationMark : String := "...(truncated)"

/-- The first characters of a text. A negative number counts from the end. -/
def front (limit : Int) (s : List Char) : List Char :=
  if 0 ≤ limit then s.take limit.toNat else s.take (s.length - (-limit).toNat)

/-- A text up to a length, with a mark when something was cut off. -/
def clip (limit : Int) (s : String) : String :=
  if limit < s.length then String.ofList (front limit s.toList) ++ truncationMark else s

theorem clip_short {limit : Int} {s : String} (h : (s.length : Int) ≤ limit) : clip limit s = s := by
  simp [clip, Int.not_lt.mpr h]

def requestText (limit : Int) (method url : String) : Option String → String
  | none => "-> " ++ method ++ " " ++ url
  | some body =>
    if body.isEmpty then "-> " ++ method ++ " " ++ url
    else "-> " ++ method ++ " " ++ url ++ " with body: " ++ clip limit body

def responseText (limit : Int) (method url status body : String) : String :=
  "<- " ++ method ++ " " ++ url ++ " [" ++ status ++ "] " ++ clip limit body

def isSuccess (status : Int) : Bool := decide (200 ≤ status) && decide (status < 300)

/-- Logs every request and response, with bodies up to a length. A status is logged when it has a text. -/
def logging (limit : Int) : Hook where
  beforeRequest method url body :=
    ⟨[.entry (.plain logger 10 (requestText limit method url body))], none⟩
  afterResponse method url status body :=
    match Value.integerText status with
    | .ok shown =>
      ⟨[.entry (.plain logger (if isSuccess status then 10 else 30)
        (responseText limit method url shown body))], none⟩
    | .error f => ⟨[], some (.fault f)⟩

def defaultLimit : Int := 2000

/-! ## Telling the hooks -/

variable {ρ : Type}

def leaveNotes : List Note → Action ρ Unit
  | [] => pure ()
  | n :: rest => do
    Action.emit (.note n)
    leaveNotes rest

/-- Carries out reactions in order, up to the first failure. -/
def react : List Reaction → Action ρ Unit
  | [] => pure ()
  | r :: rest => do
    leaveNotes r.notes
    match r.failure with
    | some f => throw f
    | none => react rest

theorem react_nil : (react [] : Action ρ Unit) = pure () := rfl

end Hook

end LedgerClient
