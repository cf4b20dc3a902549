import LedgerClient.Error.Cause
import LedgerClient.Error.Fields

/-!
# Errors of the client

An error tells its cause, its code, whether repeating the operation may help, and the details
that callers branch on. A computation fails with such an error or with a fault.
-/

namespace LedgerClient

/-- An error as a caller makes it. Its message may be a value of any shape, kept with its plain
and its detailed text. -/
structure StatedError where
  fields : ErrorFields
  message : Value
  shown : String
  detailed : String
  code : Choice
  underlying : Option String

inductive ClientError where
  | stated (e : StatedError)
  | transport (cause : TransportCause) (underlying : Option String)
  | api (status : Int) (errorCode message : Script) (body : String) (code : ErrorCode)
    (url : Option String)
  | decoding (cause : DecodingCause) (underlying : Option String)
  | encoding (cause : EncodingCause)
  | crypto (cause : CryptoCause) (underlying : Option String)
  | invalidKey (cause : KeyCause) (underlying : Option String)
  | invalidSignature (cause : SignatureCause) (underlying : Option String)
  /-- The last text is the message, which shows the three values. -/
  | confirmationTimeout (hash attempts interval : Value) (message : String)
  | configuration (cause : ConfigCause)

namespace ClientError

def optionalText : Option String → Value
  | some s => .text s
  | none => .null

/-- What the error keeps besides its message. -/
def fields : ClientError → ErrorFields
  | .stated e => e.fields
  | .transport cause _ => .transport (.text cause.url)
  | .api status errorCode message body _ url =>
    .api (.int status) errorCode.toValue message.toValue (.text body) (optionalText url)
  | .decoding cause _ => .decoding (optionalText cause.body)
  | .encoding cause => .encoding (optionalText cause.field)
  | .crypto .. => .crypto
  | .invalidKey .. => .invalidKey
  | .invalidSignature .. => .invalidSignature
  | .confirmationTimeout hash attempts interval _ => .confirmationTimeout hash attempts interval
  | .configuration cause => .configuration (.text cause.parameter)

def kind (e : ClientError) : ErrorKind := e.fields.kind

def className (e : ClientError) : String := e.kind.name

/-- The wider kinds of error that an error also is, the nearest first. -/
def bases (e : ClientError) : List String := e.kind.wider.map ErrorKind.name

/-- The message about a response with a status outside the successful ones. -/
def statusMessage (status errorCode message : String) : String :=
  "HTTP " ++ status ++ " (" ++ errorCode ++ "): " ++ message

/-- The message as text. -/
def message : ClientError → String
  | .stated e => e.shown
  | .transport cause _ => cause.message
  | .api status errorCode message .. =>
    statusMessage (Integer.decimal status) errorCode.mended message.mended
  | .decoding cause _ => cause.message
  | .encoding cause => cause.message
  | .crypto cause _ => cause.message
  | .invalidKey cause _ => cause.message
  | .invalidSignature cause _ => cause.message
  | .confirmationTimeout _ _ _ message => message
  | .configuration cause => cause.message

/-- The message as it was given. -/
def messageValue : ClientError → Value
  | .stated e => e.message
  | e => .text e.message

/-- A caller may mark an error with a choice that is no error code. -/
def code : ClientError → Choice
  | .stated e => e.code
  | .transport cause _ => .errorCode cause.code
  | .api _ _ _ _ code _ => .errorCode code
  | .decoding cause _ => .errorCode cause.code
  | .encoding cause => .errorCode cause.code
  | .crypto .. => .errorCode .recoveryFailed
  | .invalidKey .. => .errorCode .invalidKey
  | .invalidSignature .. => .errorCode .invalidSignature
  | .confirmationTimeout .. => .errorCode .confirmationTimeout
  | .configuration cause => .errorCode cause.code

/-- The operation might succeed if the caller repeats it. -/
def recoverable (e : ClientError) : Bool := e.fields.recoverable.truthy

/-- The error is transient: no response arrived, or the service was busy. -/
def isRetryable (e : ClientError) : Bool := e.fields.isRetryable

theorem recoverable_of_isRetryable {e : ClientError} (h : e.isRetryable = true) :
    e.recoverable = true := by
  simp [recoverable, ErrorFields.recoverable_of_isRetryable h, Value.truthy]

theorem isRetryable_transport (cause : TransportCause) (underlying : Option String) :
    isRetryable (.transport cause underlying) = true := rfl

theorem isRetryable_api (status : Int) (errorCode message : Script) (body : String) (code : ErrorCode)
    (url : Option String) :
    isRetryable (.api status errorCode message body code url) = isRetryableStatus status := by
  simp [isRetryable, fields, ErrorFields.isRetryable, isRetryableValue_int, isSettled]

def isNotFound (e : ClientError) : Bool := e.fields.hasStatus 404

def isConflict (e : ClientError) : Bool := e.fields.hasStatus 409

def isRateLimited (e : ClientError) : Bool := e.fields.hasStatus 429

def isServerError (e : ClientError) : Bool := e.fields.isServerError

/-- The class of the lower failure that led to the error. -/
def underlying : ClientError → Option String
  | .stated e => e.underlying
  | .transport _ underlying => underlying
  | .decoding _ underlying => underlying
  | .crypto _ underlying => underlying
  | .invalidKey _ underlying => underlying
  | .invalidSignature _ underlying => underlying
  | _ => none

def details (e : ClientError) : Value := e.fields.details

/-- The code in brackets, then the message. -/
def text (e : ClientError) : String := "[" ++ e.code.label ++ "] " ++ e.message

def messageDetail : ClientError → String
  | .stated e => e.detailed
  | e => Text.quoted e.message

def detailed (e : ClientError) : String :=
  e.className ++ "(code=" ++ e.code.label ++ ", message=" ++ e.messageDetail ++ ")"

/-! ## Errors by cause -/

def connectionFailed (url : String) (why underlying : Option String) : ClientError :=
  .transport (.connection url why) underlying

def timedOut (url seconds : String) (underlying : Option String) : ClientError :=
  .transport (.timeout url seconds) underlying

def requestFailed (url why : String) (underlying : Option String) : ClientError :=
  .transport (.failed url why) underlying

def notJson (url body : String) (underlying : Option String) : ClientError :=
  .decoding (.notJson url body) underlying

def unexpectedShape (typeName why : String) (underlying : Option String) : ClientError :=
  .decoding (.shape typeName why) underlying

def missingField (field : String) : ClientError := .encoding (.missing field)

def invalidField (field : String) (why : InvalidReason) : ClientError := .encoding (.invalid field why)

def outOfRange (field shown : String) (bits : Nat) : ClientError :=
  .encoding (.outOfRange field shown bits)

def unsupportedPayload (typeName : String) : ClientError := .encoding (.unsupported typeName)

def ofCrypto (cause : CryptoCause) : ClientError := .crypto cause none

def recoveryFailed (why : String) (underlying : Option String) : ClientError :=
  .crypto (.recovery why) underlying

def invalidConfig (parameter : String) (why : ConfigReason) : ClientError :=
  .configuration (.invalid parameter why)

def missingConfig (parameter : String) : ClientError := .configuration (.missing parameter)

/-- Polling ended without a final status. -/
def notConfirmed (hash attempts interval : Value) : Except Fault ClientError := do
  let hashText ← hash.display
  let attemptsText ← attempts.display
  let intervalText ← interval.display
  return .confirmationTimeout hash attempts interval
    ("Transaction " ++ hashText ++ " not final after " ++ attemptsText ++ " attempts (" ++
      intervalText ++ "s interval)")

end ClientError

/-- Why a computation failed. -/
inductive Failure where
  | client (e : ClientError)
  | fault (f : Fault)

namespace Failure

/-- The text of a failure inside a larger message. -/
def text : Failure → String
  | .client e => e.text
  | .fault f => f.text

def label : Failure → String
  | .client e => e.className
  | .fault f => f.label

end Failure

/-- Results of the operations that callers use. -/
abbrev Result (α : Type) := Except Failure α

namespace Result

def fail {α : Type} (e : ClientError) : Result α := .error (.client e)

def ofFault {α : Type} : Except Fault α → Result α
  | .ok a => .ok a
  | .error f => .error (.fault f)

theorem ofFault_ok {α : Type} (a : α) : ofFault (.ok a) = .ok a := rfl

end Result

end LedgerClient
