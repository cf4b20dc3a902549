import LedgerClient.Error.Basic
import LedgerClient.Logging.Format

/-!
# Events

What an operation does to its surroundings, one event each: it calls something, asks for a status,
sleeps, sends a request, or leaves a note. A note is a log entry or what a recording hook saw.
-/

namespace LedgerClient

/-- A record with named values beside its message. A record about an operation is also filed under the
id that was in force. -/
structure LogEntry where
  record : Logging.Record
  context : List (String × Value)
  correlation : Option Value

namespace LogEntry

def plain (logger : String) (level : Int) (message : String) : LogEntry :=
  ⟨⟨logger, level, message⟩, [], none⟩

end LogEntry

structure Request where
  method : String
  url : String
  headers : List (String × Value)
  body : Option String
  timeout : Value

inductive Note where
  | entry (e : LogEntry)
  /-- A recording hook, by its place in the list of hooks, saw a request. -/
  | sawRequest (hook : Nat) (method url : String) (body : Option String)
  | sawResponse (hook : Nat) (method url : String) (status : Int) (body : String)

inductive Event where
  | call
  | fetch (hash : Value)
  | sleep (seconds : Value)
  | request (r : Request)
  | note (n : Note)

namespace Event

def isRequest : Event → Bool
  | .request _ => true
  | _ => false

def isSleep : Event → Bool
  | .sleep _ => true
  | _ => false

end Event

end LedgerClient
