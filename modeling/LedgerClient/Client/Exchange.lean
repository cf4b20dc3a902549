import LedgerClient.Client.Basic
import LedgerClient.Error.Mapping
import LedgerClient.Json.Writer
import LedgerClient.Response.Decode

/-!
# Exchanges

One request and its response. The hooks are told first, then the request goes out; what comes back
is a response or a failure. A failure becomes a transport error unless it is an error of the client
already. The hooks are told about a response before its status is looked at, and a successful one
is read as JSON.
-/

namespace LedgerClient

/-- What the other side does with a request. -/
inductive Reply where
  | response (status : Int) (body : Bytes)
  | failure (why : Failure)

/-- What a call gives back. -/
inductive Answer where
  | value (v : Value)
  | response (r : Response)
  | submitted (hash : Script) (payload : Value)

/-! ## Decoders -/

namespace Decoder

/-- The name under which a decoder reports a wrong shape. -/
def reportName : Decoder → String
  | .response type => type.name
  | .signature => "Signature.from_dict"
  | .metadataPair => "MetadataKVPair.from_dict"
  | .integer => "int"
  | .length => "len"
  | .truth => "bool"

def readInteger (data : Value) : Except Fault Int :=
  match data with
  | .float x =>
    match Binary.truncate? x with
    | some n => .ok n
    | none => .error (if Binary.isNaN x then .badValue else .overflow)
  | .text s =>
    match Integer.read? 10 s with
    | some n => .ok n
    | none => .error .badValue
  | .torn _ => .error .badValue
  | _ =>
    match data.integer? with
    | some n => .ok n
    | none => .error .wrongType

def readLength (data : Value) : Except Fault Nat :=
  match data with
  | .text s => .ok s.length
  | .torn t => .ok t.glyphs.length
  | .list items | .tuple items => .ok items.length
  | .dict entries => .ok entries.length
  | .bytes bs | .buffer bs => .ok bs.length
  | _ => .error .wrongType

def readRaw (d : Decoder) (data : Value) : Result Answer :=
  match d with
  | .response type => (Response.decode type data).map .response
  | .signature => (Result.ofFault (Signature.ofDict data)).map fun s => .value s.toValue
  | .metadataPair => (Metadata.Entry.ofValue data).map fun e => .value e.toValue
  | .integer => (Result.ofFault (readInteger data)).map fun n => .value (.int n)
  | .length => (Result.ofFault (readLength data)).map fun n => .value (.int n)
  | .truth => .ok (.value (.bool data.truthy))

/-- Faults about a wrong shape become decoding errors. -/
def reportShape {α : Type} (name : String) (r : Result α) : Result α :=
  match r with
  | .error (.fault f) =>
    if f.isShape then .fail (.unexpectedShape name f.text (some f.label)) else .error (.fault f)
  | _ => r

def read (d : Decoder) (data : Value) : Result Answer := reportShape d.reportName (d.readRaw data)

/-- Decodes as a caller asks: not at all, with a decoder, or in vain. -/
def readAs (decoder data : Value) : Result Answer :=
  match decoder with
  | .null => .ok (.value data)
  | .decoder d => d.read data
  | _ => do
    let name ← Result.ofFault decoder.detailed
    reportShape name (.error (.fault .wrongType))

end Decoder

namespace Client

variable {ρ : Type}

/-! ## One exchange -/

def logger : String := "onemoney_client.infra.dispatcher"

def mediaType : String := "application/json"

def headers (c : Client) (hasBody : Bool) : List (String × Value) :=
  [("Accept", .text mediaType), ("User-Agent", c.config.userAgent)] ++
    (if hasBody then [("Content-Type", .text mediaType)] else [])

/-- The failure of a request for which no reply is left. -/
def noReply : Reply := .failure (.fault (.outside (.named "RuntimeError" "no response queued")))

def transmit (r : Request) : Action Reply Reply := do
  modify fun w => { w with transport := w.transport.acquire.2 }
  Action.emit (.request r)
  let reply ← Action.nextAnswer
  return reply.getD noReply

/-- Errors of the client and cancellations pass unchanged; every other failure is that of the
transport. -/
def failTransmission {α : Type} (c : Client) (method url : String) (why : Failure) : Action ρ α :=
  match why with
  | .client e => throw (.client e)
  | .fault f =>
    if f.isCancellation then throw (.fault f)
    else do
      let e ← Action.ofResult (ErrorMapping.ofTransport (.fault f) url (some c.config.timeout))
      Action.log (.plain logger 30 (method ++ " " ++ url ++ " failed: " ++ e.text))
      Action.fail e

def failStatus {α : Type} (status : Int) (raw : Bytes) (url : String) : Action ρ α := do
  let e ← Action.ofResult (ErrorMapping.ofResponse status raw (some url))
  match ErrorMapping.logText e with
  | some text => Action.log (.plain ErrorMapping.logger 10 text)
  | none => pure ()
  Action.fail e

/-- Sends a request and gives the JSON value of a successful response. -/
def exchange (c : Client) (method url : String) (body : Option String) : Action Reply Value := do
  Hook.react (c.hooks.map fun h => h.beforeRequest method url body)
  match ← transmit ⟨method, url, c.headers body.isSome, body, c.config.timeout⟩ with
  | .failure why => c.failTransmission method url why
  | .response status raw =>
    Hook.react (c.hooks.map fun h => h.afterResponse method url status (Text.ofUtf8 raw))
    if Hook.isSuccess status then Action.ofResult (Response.parseBody raw url)
    else failStatus status raw url

/-- An absent body is not sent; every other value is sent as JSON, whose text must not be torn. -/
def bodyText (body : Value) : Except Fault (Option String) :=
  if body.isNull then .ok none
  else do
    let s ← Json.write body
    if Json.holdsTorn body then .error .unencodable else return some s

/-- The exchange of a request to a path of the service. -/
def request (c : Client) (method : String) (path body params : Value) : Action Reply Value := do
  let url ← Action.ofFault (c.config.requestUrl path params)
  let text ← Action.ofFault (bodyText body)
  c.exchange method url text

/-- A query for a record. -/
def query (c : Client) (path : String) (params : List (String × Value)) : Action Reply Value :=
  c.request "GET" (.text path) .null (Value.record params)

def upperOf (method : Value) : Except Fault String :=
  match method with
  | .text s => .ok (Text.upper s)
  | .torn t => .ok (Text.upper t.mended)
  | _ => .error .noAttribute

/-- Any request, decoded as the caller asks. -/
def send (c : Client) (method path body decoder params : Value) : Action Reply Answer := do
  let verb ← Action.ofFault (upperOf method)
  let data ← c.request verb path body params
  Action.ofResult (Decoder.readAs decoder data)

end Client

end LedgerClient
