import LedgerClient.Error.Basic
import LedgerClient.Json.Reader
import LedgerClient.Text.Utf8

/-!
# From failed requests to errors

A request fails before a response arrives, or with a status outside the successful ones. In the
first case the kind of the lower failure decides between a timeout, a failed connection and a
failed request. In the second the body may hold a code and a message of the service; otherwise its
whole text is the message.
-/

namespace LedgerClient.ErrorMapping

/-- The timeout that is reported when none is known. -/
def unknownTimeout : Value := .float 0.0

/-- The timeout in a message; an absent one reads as zero. -/
def timeoutText (timeout : Option Value) : Except Fault String :=
  match timeout with
  | none | some .null => unknownTimeout.display
  | some v => v.display

def familyOf : Failure → OutsideFamily
  | .fault (.outside failure) => failure.family
  | _ => .other

/-- The error for a failure that occurred before any response. -/
def ofTransport (why : Failure) (url : String) (timeout : Option Value) : Result ClientError :=
  match familyOf why with
  | .timeout => do
    let seconds ← Result.ofFault (timeoutText timeout)
    return .timedOut url seconds (some why.label)
  | .connection => .ok (.connectionFailed url (some why.text) (some why.label))
  | _ => .ok (.requestFailed url why.text (some why.label))

def startsWith (s start : String) : Bool := start.toList.isPrefixOf s.toList

/-- The first rule that fits the status or the service's own code. -/
def classify (status : Int) (errorCode : String) : ErrorCode :=
  if status = 400 || startsWith errorCode "validation_" then .apiValidation
  else if status = 401 || status = 403 then .apiAuth
  else if status = 404 || startsWith errorCode "resource_" then .apiNotFound
  else if status = 409 then .apiConflict
  else if status = 422 || startsWith errorCode "business_" then .apiBusiness
  else if status = 429 then .apiRateLimited
  else if (decide (500 ≤ status) && decide (status < 600)) || startsWith errorCode "system_" then
    .apiServer
  else .apiUnknown

/-- One status decides before the code is looked at; otherwise the code must be a text. -/
def classifyValue (status : Int) (errorCode : Value) : Except Fault ErrorCode :=
  if status = 400 then .ok .apiValidation
  else
    match errorCode.text? with
    | some code => .ok (classify status code.mended)
    | none => .error .noAttribute

def unknownCode : String := "unknown"

/-- The code and the message that a body states, when it is an object with both. -/
def statedError (text : String) : Except Fault (Option (Value × Value)) :=
  match Json.read text with
  | .ok (.dict entries) => .ok do
    let code ← Value.lookup "error_code" entries
    let message ← Value.lookup "message" entries
    return (code, message)
  | .error .tooDeep => .error .tooDeep
  | _ => .ok none

/-- The code and the message for a body that is not nested too deep. -/
def statement (text : String) : Except Fault (Script × Script) := do
  match ← statedError text with
  | some (code, message) =>
    let codeText ← code.script
    let messageText ← message.script
    return (codeText, messageText)
  | none => return (unknownCode, text)

/-- The error for a response with a status outside the successful ones. Its message shows the status. -/
def ofResponse (status : Int) (body : Bytes) (url : Option String) : Result ClientError := do
  let text := Text.ofUtf8 body
  let (code, message) ← Result.ofFault (statement text)
  let _ ← Result.ofFault (Value.integerText status)
  return .api status code message text (classify status code.mended) url

def logger : String := "onemoney_client.errors.mapper"

/-- What is logged about an error response. -/
def logText (e : ClientError) : Option String :=
  match e with
  | .api status errorCode message _ _ url =>
    some ("API error " ++ Integer.decimal status ++ " (" ++ errorCode.mended ++ ") from " ++
      url.getD "None" ++ ": " ++ message.mended)
  | _ => none

end LedgerClient.ErrorMapping
