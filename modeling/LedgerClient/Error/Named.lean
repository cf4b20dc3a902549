import LedgerClient.Error.Basic
import LedgerClient.Value.Binding

/-!
# Failures by name

An error of the client is made by the name of its kind, or of one of the ways to make it, from
arguments of any shape. It keeps them as they are; where a message shows an argument, it shows its
text. A code given by name is written as its number. Every other name is that of an outside failure,
which carries its arguments.
-/

namespace LedgerClient

/-- A way to make an error. -/
structure ErrorForm where
  parameters : List Parameter
  make : List Value → Result ClientError

namespace ErrorForm

open Parameter (required optional)

/-- The text of an argument. -/
def shown (v : Value) : Result String := Result.ofFault v.display

/-- The type of an object that led to the error. -/
def origin (v : Value) : Option String := if v.isNull then none else some v.typeName

/-- Only a choice has a label and an identifier. -/
def codeOf (v : Value) : Result Choice :=
  match v with
  | .choice c => .ok c
  | _ => .error (.fault .noAttribute)

/-- The code with a number. -/
def codeAt (number : Value) : Result Value :=
  match number with
  | .choice (.errorCode c) => .ok (.choice (.errorCode c))
  | .text s =>
    match ErrorCode.ofNumber? s with
    | some c => .ok (.choice (.errorCode c))
    | none => .error (.fault .badValue)
  | _ => .error (.fault .badValue)

/-- The error with a given message. -/
def stated (fields : ErrorFields) (m code e : Value) : Result ClientError := do
  let c ← codeOf code
  let detailed ← Result.ofFault m.detailed
  return .stated ⟨fields, m, ← shown m, detailed, c, origin e⟩

/-- The error with a message in the library's own words. -/
def worded (fields : ErrorFields) (m : String) (c : ErrorCode) (e : Value) : ClientError :=
  .stated ⟨fields, .text m, m, Text.quoted m, .errorCode c, origin e⟩

theorem worded_message (fields : ErrorFields) (m : String) (c : ErrorCode) (e : Value) :
    (worded fields m c e).message = m := rfl

def one (p : Parameter) (make : Value → Result ClientError) : ErrorForm :=
  ⟨[p], fun values => match values with
    | [a] => make a
    | _ => .error (.fault .wrongType)⟩

def two (p q : Parameter) (make : Value → Value → Result ClientError) : ErrorForm :=
  ⟨[p, q], fun values => match values with
    | [a, b] => make a b
    | _ => .error (.fault .wrongType)⟩

def three (p q r : Parameter) (make : Value → Value → Value → Result ClientError) : ErrorForm :=
  ⟨[p, q, r], fun values => match values with
    | [a, b, c] => make a b c
    | _ => .error (.fault .wrongType)⟩

def four (p q r s : Parameter) (make : Value → Value → Value → Value → Result ClientError) :
    ErrorForm :=
  ⟨[p, q, r, s], fun values => match values with
    | [a, b, c, d] => make a b c d
    | _ => .error (.fault .wrongType)⟩

def message : Parameter := required "message"

def cause : Parameter := optional "original_error"

/-- The parameter of the code with the code of a kind when none is given. -/
def code (usual : ErrorCode) : Parameter := ⟨"code", some (.choice (.errorCode usual))⟩

/-! ## Kinds -/

def general : ErrorForm :=
  ⟨[message, required "code", ⟨"recoverable", some (.bool false)⟩, cause, optional "details"],
    fun values => match values with
      | [m, c, recoverable, e, details] => stated (.general recoverable details) m c e
      | _ => .error (.fault .wrongType)⟩

def transport : ErrorForm :=
  four message (code .transportFailed) cause (optional "url") fun m c e url =>
    stated (.transport url) m c e

/-- A status must be a number. -/
def api : ErrorForm :=
  ⟨[required "status_code", required "error_code", message, ⟨"body", some (.text "")⟩,
      code .apiUnknown, optional "url"],
    fun values => match values with
      | [status, errorCode, m, body, c, url] => do
        let _ ← Result.ofFault (isRetryableValue status)
        let text := ClientError.statusMessage (← shown status) (← shown errorCode) (← shown m)
        stated (.api status errorCode m body url) (.text text) c .null
      | _ => .error (.fault .wrongType)⟩

def decoding : ErrorForm :=
  four message (code .unexpectedShape) cause (optional "body") fun m c e body =>
    stated (.decoding body) m c e

def encoding : ErrorForm :=
  three message (code .invalidValue) (optional "field_name") fun m c field =>
    stated (.encoding field) m c .null

def crypto : ErrorForm := three message (code .recoveryFailed) cause (stated .crypto)

def invalidKey : ErrorForm := two message cause fun m e =>
  stated .invalidKey m (.choice (.errorCode .invalidKey)) e

def invalidSignature : ErrorForm := two message cause fun m e =>
  stated .invalidSignature m (.choice (.errorCode .invalidSignature)) e

def confirmationTimeout : ErrorForm :=
  three (required "tx_hash") (required "attempts") (required "interval") fun h a i =>
    Result.ofFault (ClientError.notConfirmed h a i)

def configuration : ErrorForm := two message (optional "param_name") fun m name =>
  stated (.configuration name) m (.choice (.errorCode .configInvalid)) .null

/-- The form of a kind. -/
def ofKind? (kind : String) : Option ErrorForm :=
  match kind with
  | "OneMoneyError" => some general
  | "TransportError" => some transport
  | "ApiError" => some api
  | "DecodingError" => some decoding
  | "EncodingError" => some encoding
  | "CryptoError" => some crypto
  | "InvalidKeyError" => some invalidKey
  | "InvalidSignatureError" => some invalidSignature
  | "ConfirmationTimeoutError" => some confirmationTimeout
  | "ConfigurationError" => some configuration
  | _ => none

/-! ## Ways to make an error of a kind -/

def url : Parameter := required "url"

def field : Parameter := required "field_name"

def parameter : Parameter := required "param_name"

def ofTransport (url e : Value) (cause : TransportCause) : ClientError :=
  worded (.transport url) cause.message cause.code e

def ofDecoding (body e : Value) (cause : DecodingCause) : ClientError :=
  worded (.decoding body) cause.message cause.code e

def ofEncoding (field : Value) (cause : EncodingCause) : ClientError :=
  worded (.encoding field) cause.message cause.code .null

def ofConfig (name : Value) (cause : ConfigCause) : ClientError :=
  worded (.configuration name) cause.message cause.code .null

/-- An object that counts as false says nothing about the connection. -/
def connectionFailed : ErrorForm := two url (optional "error") fun u e => do
  let why ← if e.truthy then (shown e).map some else pure none
  return ofTransport u e (.connection (← shown u) why)

def timedOut : ErrorForm := three url (required "timeout_seconds") (optional "error") fun u t e => do
  return ofTransport u e (.timeout (← shown u) (← shown t))

def requestFailed : ErrorForm := two url (required "error") fun u e => do
  return ofTransport u e (.failed (← shown u) (← shown e))

def notJson : ErrorForm := three url (required "body") (optional "error") fun u body e => do
  return ofDecoding body e (.notJson (← shown u) "")

def unexpectedShape : ErrorForm := two (required "type_name") (required "error") fun t e => do
  return ofDecoding .null e (.shape (← shown t) (← shown e))

def missingField : ErrorForm := one field fun f => do
  return ofEncoding f (.missing (← shown f))

def outOfRange : ErrorForm := three field (required "value") (required "bits") fun f v bits => do
  return worded (.encoding f)
    (EncodingCause.rangeMessage (← shown f) (← shown v) (← shown bits)) .outOfRange .null

def invalidField : ErrorForm := two field (required "reason") fun f why => do
  return ofEncoding f (.invalid (← shown f) (.stated (← shown why)))

def recoveryFailed : ErrorForm := one (required "error") fun e => do
  let error : CryptoCause := .recovery (← shown e)
  return worded .crypto error.message .recoveryFailed e

def missingConfig : ErrorForm := one parameter fun p => do
  return ofConfig p (.missing (← shown p))

def invalidConfig : ErrorForm := two parameter (required "reason") fun p why => do
  return ofConfig p (.invalid (← shown p) (.stated (← shown why)))

/-- The form behind a kind and a point. -/
def ofWay? (name : String) : Option ErrorForm :=
  match name with
  | "TransportError.connection_failed" => some connectionFailed
  | "TransportError.timeout" => some timedOut
  | "TransportError.failed" => some requestFailed
  | "DecodingError.invalid_json" => some notJson
  | "DecodingError.unexpected_shape" => some unexpectedShape
  | "EncodingError.missing_field" => some missingField
  | "EncodingError.out_of_range" => some outOfRange
  | "EncodingError.invalid" => some invalidField
  | "EncodingError.unsupported_payload" =>
    some (one (required "payload") fun p => .ok (.unsupportedPayload p.typeName))
  | "CryptoError.recovery_failed" => some recoveryFailed
  | "ConfigurationError.missing" => some missingConfig
  | "ConfigurationError.invalid" => some invalidConfig
  | _ => none

def ofName? (name : String) : Option ErrorForm := (ofKind? name).or (ofWay? name)

theorem ofName?_of_kind {name : String} {form : ErrorForm} (h : ofKind? name = some form) :
    ofName? name = some form := by
  simp [ofName?, h]

end ErrorForm

namespace Outside

/-- The name behind the last point; two names are older ones of a third. -/
def properName (name : String) : String :=
  let last := (name.splitOn ".").getLastD name
  if last = "IOError" || last = "EnvironmentError" then "OSError" else last

/-- The text of a failure that carries arguments: none of nothing, that of a single one, otherwise
that of them all. A missing key is shown in detail. -/
def carriedText (name : String) (args : List Value) : Except Fault String :=
  match args with
  | [] => .ok ""
  | [v] => if name = "KeyError" then v.detailed else v.display
  | _ => (Value.tuple args).detailed

def ofArguments (name : String) (args : List Value) : Except Fault Outside := do
  let name := properName name
  return .named name (← carriedText name args)

/-- The name with the arguments in detail. -/
def detailed (name : String) (args : List Value) : Except Fault String := do
  let parts ← args.mapM Value.detailed
  return properName name ++ "(" ++ Value.commaList parts ++ ")"

end Outside

namespace Failure

/-- A code among the arguments by name is found by its number. -/
def readCode (named : List (String × Value)) : Result (List (String × Value)) :=
  named.mapM fun (name, v) =>
    if name = "code" then (ErrorForm.codeAt v).map fun c => (name, c) else .ok (name, v)

/-- The failure of a name with arguments by position and by name. -/
def ofName (name : String) (args : List Value) (named : List (String × Value)) : Result Failure := do
  let named ← readCode named
  match ErrorForm.ofName? name with
  | some form =>
    let values ← Result.ofFault (Parameter.bind form.parameters args named)
    return .client (← form.make values)
  | none =>
    if named.isEmpty then
      return .fault (.outside (← Result.ofFault (Outside.ofArguments name args)))
    else .error (.fault .wrongType)

/-- A failure by name as an object. -/
def objectOfName (name : String) (args : List Value) (named : List (String × Value)) :
    Result Value := do
  match ← ofName name args named with
  | .client e => return .failure e.className e.text e.detailed
  | .fault f => return .failure f.label f.text (← Result.ofFault (Outside.detailed name args))

end Failure

end LedgerClient
