import LedgerClient.Number.Decimal
import LedgerClient.Text.Quoted

/-!
# Faults

A fault ends a computation without being an error of the client itself: a value of an unusable
type, a text that denotes no number, an absent key, a result beyond a format, an outside
failure. Some faults state their reason; the others are shown by their kind alone.
-/

namespace LedgerClient

inductive FaultKind where
  | type
  | value
  | encoding
  /-- A lone half of a surrogate pair, for which there are no bytes. -/
  | surrogate
  | key
  | attribute
  | overflow
  /-- Parts within parts, more than the interpreter follows. -/
  | nesting
  | decimalInvalid
  | decimalOverflow
  | cancelled
  deriving DecidableEq, Repr

/-- Reasons that a check of this library states. -/
inductive Refusal where
  | scalarTruth (scalar : String)
  | scalarType (scalar got : String)
  | notInteger (got : String)
  | outsideWord (shown : String)
  | notHash (shown : String)
  | successType (got : String)
  | feeType
  deriving DecidableEq, Repr

/-- How an outside failure is treated by the layers above. -/
inductive OutsideFamily where
  | timeout
  | connection
  | cancellation
  | other
  deriving DecidableEq, Repr

namespace OutsideFamily

def timeoutNames : List String :=
  ["TimeoutException", "ReadTimeout", "ConnectTimeout", "WriteTimeout", "PoolTimeout"]

def connectionNames : List String :=
  ["ConnectError", "NetworkError", "ReadError", "WriteError", "CloseError", "ConnectionError",
    "ConnectionRefusedError", "ConnectionResetError", "ConnectionAbortedError", "BrokenPipeError"]

/-- The family of a failure that goes by its name. -/
def ofName (name : String) : OutsideFamily :=
  if timeoutNames.contains name then .timeout
  else if connectionNames.contains name then .connection
  else if name = "CancelledError" then .cancellation
  else .other

end OutsideFamily

/-- A failure of the network or of a callback. -/
structure Outside where
  name : String
  family : OutsideFamily
  text : String
  deriving DecidableEq, Repr

/-- A failure by its name with the text that it carries. -/
def Outside.named (name text : String) : Outside := ⟨name, .ofName name, text⟩

inductive Fault where
  | plain (kind : FaultKind)
  | missingKey (key : String)
  | refused (why : Refusal)
  | outside (failure : Outside)
  deriving DecidableEq, Repr

namespace Fault

def wrongType : Fault := .plain .type
def badValue : Fault := .plain .value
/-- Bytes that are no text. -/
def notAscii : Fault := .plain .encoding
/-- A text that no bytes stand for. -/
def unencodable : Fault := .plain .surrogate
def noAttribute : Fault := .plain .attribute
def overflow : Fault := .plain .overflow
def tooDeep : Fault := .plain .nesting
def cancelled : Fault := .plain .cancelled

def ofSignal : Decimal.Signal → Fault
  | .invalidOperation => .plain .decimalInvalid
  | .overflow => .plain .decimalOverflow

end Fault

namespace FaultKind

def label : FaultKind → String
  | .type => "TypeError"
  | .value => "ValueError"
  | .encoding => "UnicodeDecodeError"
  | .surrogate => "UnicodeEncodeError"
  | .key => "KeyError"
  | .attribute => "AttributeError"
  | .overflow => "OverflowError"
  | .nesting => "RecursionError"
  | .decimalInvalid => "InvalidOperation"
  | .decimalOverflow => "Overflow"
  | .cancelled => "CancelledError"

/-- The kinds that a badly shaped value causes. -/
def isShape : FaultKind → Bool
  | .type | .value | .encoding | .surrogate | .key | .attribute => true
  | _ => false

end FaultKind

namespace Refusal

def kind : Refusal → FaultKind
  | .scalarTruth _ | .scalarType .. | .outsideWord _ | .notHash _ => .value
  | .notInteger _ | .successType _ | .feeType => .type

def message : Refusal → String
  | .scalarTruth scalar => "signature " ++ scalar ++ " must be an integer"
  | .scalarType scalar got => "signature " ++ scalar ++ " must be int or str, got " ++ got
  | .notInteger got => "expected integer, got " ++ got
  | .outsideWord shown => shown ++ " is outside the u64 range"
  | .notHash shown => "expected 0x-prefixed hash, got " ++ shown
  | .successType got => "success must be bool, got " ++ got
  | .feeType => "fee_used must be an integer"

end Refusal

namespace Fault

/-- The kind of a fault of this library; an outside failure has none. -/
def kind? : Fault → Option FaultKind
  | .plain kind => some kind
  | .missingKey _ => some .key
  | .refused why => some why.kind
  | .outside _ => none

/-- The name under which a fault is reported. -/
def label : Fault → String
  | .plain kind => kind.label
  | .missingKey _ => FaultKind.key.label
  | .refused why => why.kind.label
  | .outside failure => failure.name

/-- The stated reason, if there is one. -/
def reason? : Fault → Option String
  | .refused why => some why.message
  | _ => none

/-- The text inside a larger message: a fault without one shows its label between angle
brackets. -/
def text : Fault → String
  | .plain kind => "<" ++ kind.label ++ ">"
  | .missingKey key => Text.quoted key
  | .refused why => why.message
  | .outside failure => failure.text

def isShape (f : Fault) : Bool := (f.kind?.map FaultKind.isShape).getD false

def isCancellation : Fault → Bool
  | .plain .cancelled => true
  | .outside failure => failure.family = .cancellation
  | _ => false

end Fault

end LedgerClient
