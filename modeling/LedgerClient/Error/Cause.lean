import LedgerClient.Choice

/-!
# Causes of the client's errors

Each check of the library has a cause of its own, which fixes the code of the error and what the
error is about, and the wording of every message stands here once. A reason `stated` is one that a
caller chose.
-/

namespace LedgerClient

inductive TransportCause where
  /-- No connection; the lower layer may have said why. -/
  | connection (url : String) (why : Option String)
  | timeout (url seconds : String)
  | failed (url why : String)
  deriving DecidableEq, Repr

inductive DecodingCause where
  | notJson (url body : String)
  | shape (typeName why : String)
  deriving DecidableEq, Repr

inductive InvalidReason where
  | expected (what got : String)
  | byteCount (wanted got : Nat)
  | hexCount (wanted got : Nat)
  | notHex (shown : String)
  | notAddress (typeName : String)
  | notDecimal (shown : String)
  | floatAmount
  | notNumber (shown : String)
  | notFinite (shown : String)
  | tooPrecise (amount decimals : String)
  | unknownChoice (shown : String) (family : Family)
  | wrongAction (operation required got : String)
  | stated (reason : String)
  deriving DecidableEq, Repr

inductive EncodingCause where
  | missing (field : String)
  | outOfRange (field shown : String) (bits : Nat)
  | invalid (field : String) (why : InvalidReason)
  | unsupported (typeName : String)
  deriving DecidableEq, Repr

inductive CryptoCause where
  | hashLength
  | keyMarker (byte : Nat)
  | publicKeyLength (got : Nat)
  | recovery (why : String)
  deriving DecidableEq, Repr

inductive KeyCause where
  | hexCount (got : Nat)
  | notHex
  | byteCount (got : Nat)
  | wrongType (typeName : String)
  | outsideRange
  | rejected
  deriving DecidableEq, Repr

inductive SignatureCause where
  | wrongType (typeName : String)
  | indicator (shown : String)
  | rOutside
  | sOutside
  | malformed (typeName : String)
  deriving DecidableEq, Repr

inductive ConfigReason where
  | unknownNetwork (shown : String) (known : List String)
  | notPositive (shown : String)
  | below (bound : Nat) (shown : String)
  | notUrl (shown : String)
  | notFound (path : String)
  | stated (reason : String)
  deriving DecidableEq, Repr

inductive ConfigCause where
  | invalid (parameter : String) (why : ConfigReason)
  | missing (parameter : String)
  deriving DecidableEq, Repr

namespace TransportCause

def message : TransportCause → String
  | .connection url none => "Failed to connect to " ++ url
  | .connection url (some why) => "Failed to connect to " ++ url ++ ": " ++ why
  | .timeout url seconds => "Request to " ++ url ++ " timed out after " ++ seconds ++ "s"
  | .failed url why => "Request to " ++ url ++ " failed: " ++ why

def code : TransportCause → ErrorCode
  | .connection .. => .connectionFailed
  | .timeout .. => .timeout
  | .failed .. => .transportFailed

def url : TransportCause → String
  | .connection url _ | .timeout url _ | .failed url _ => url

end TransportCause

namespace DecodingCause

def message : DecodingCause → String
  | .notJson url _ => "Response from " ++ url ++ " is not valid JSON"
  | .shape typeName why => "Cannot decode " ++ typeName ++ ": " ++ why

def code : DecodingCause → ErrorCode
  | .notJson .. => .invalidJson
  | .shape .. => .unexpectedShape

/-- The text that is no JSON. -/
def body : DecodingCause → Option String
  | .notJson _ body => some body
  | .shape .. => none

end DecodingCause

namespace InvalidReason

def message : InvalidReason → String
  | .expected what got => "expected " ++ what ++ ", got " ++ got
  | .byteCount wanted got =>
    "expected " ++ toString wanted ++ " bytes, got " ++ toString got
  | .hexCount wanted got =>
    "expected " ++ toString wanted ++ " hex characters, got " ++ toString got
  | .notHex shown => "non-hex characters in " ++ shown
  | .notAddress typeName => "cannot convert " ++ typeName ++ " to address"
  | .notDecimal shown => "not a decimal integer string: " ++ shown
  | .floatAmount => "float amounts are not accepted, use Decimal or str"
  | .notNumber shown => "not a number: " ++ shown
  | .notFinite shown => "not a finite number: " ++ shown
  | .tooPrecise amount decimals => amount ++ " has more than " ++ decimals ++ " decimal places"
  | .unknownChoice shown family =>
    "unknown value '" ++ shown ++ "', expected one of: " ++
      ", ".intercalate (family.members.map Choice.label)
  | .wrongAction operation required got =>
    operation ++ " requires " ++ required ++ ", got " ++ got
  | .stated reason => reason

end InvalidReason

namespace EncodingCause

def rangeMessage (field shown bits : String) : String :=
  "Field '" ++ field ++ "' value " ++ shown ++ " does not fit in an unsigned " ++ bits ++
    "-bit integer"

def message : EncodingCause → String
  | .missing field => "Required field '" ++ field ++ "' is missing"
  | .outOfRange field shown bits => rangeMessage field shown (toString bits)
  | .invalid field why => "Field '" ++ field ++ "' is invalid: " ++ why.message
  | .unsupported typeName => "Unsupported payload type: " ++ typeName

def code : EncodingCause → ErrorCode
  | .missing _ => .missingField
  | .outOfRange .. => .outOfRange
  | .invalid .. => .invalidValue
  | .unsupported _ => .unsupportedPayload

/-- The field that an error is about. -/
def field : EncodingCause → Option String
  | .missing field | .outOfRange field .. | .invalid field _ => some field
  | .unsupported _ => none

end EncodingCause

namespace CryptoCause

def message : CryptoCause → String
  | .hashLength => "Message hash must be 32 bytes"
  | .keyMarker byte =>
    "Uncompressed public key must start with 0x04, got 0x" ++
      String.ofList (let digits := Nat.toDigits 16 byte
        if digits.length < 2 then '0' :: digits else digits)
  | .publicKeyLength got => "Public key must be 64 or 65 bytes, got " ++ toString got
  | .recovery why => "Public key recovery failed: " ++ why

end CryptoCause

namespace KeyCause

/-- No message shows any part of the key. -/
def message : KeyCause → String
  | .hexCount got => "Private key must be 64 hex characters, got " ++ toString got
  | .notHex => "Private key is not valid hex"
  | .byteCount got => "Private key must be 32 bytes, got " ++ toString got
  | .wrongType typeName => "Private key must be bytes or hex str, got " ++ typeName
  | .outsideRange => "Private key is outside the secp256k1 scalar range"
  | .rejected => "Private key rejected by secp256k1 backend"

end KeyCause

namespace SignatureCause

def message : SignatureCause → String
  | .wrongType typeName => "Expected Signature, got " ++ typeName
  | .indicator shown => "Invalid recovery indicator v=" ++ shown
  | .rOutside => "Signature r is outside the valid range"
  | .sOutside => "Signature s is outside the valid range"
  | .malformed typeName =>
    "Malformed signature: Value must be a an integer.  Got: <class '" ++ typeName ++ "'>"

end SignatureCause

namespace ConfigReason

def message : ConfigReason → String
  | .unknownNetwork shown known =>
    "unknown network '" ++ shown ++ "', expected one of: " ++ ", ".intercalate known
  | .notPositive shown => "must be positive, got " ++ shown
  | .below bound shown => "must be >= " ++ toString bound ++ ", got " ++ shown
  | .notUrl shown => "expected http(s) URL, got '" ++ shown ++ "'"
  | .notFound path => path ++ " not found"
  | .stated reason => reason

end ConfigReason

namespace ConfigCause

def message : ConfigCause → String
  | .invalid parameter why => "Invalid configuration for " ++ parameter ++ ": " ++ why.message
  | .missing parameter => "Missing required configuration: " ++ parameter

def code : ConfigCause → ErrorCode
  | .invalid .. => .configInvalid
  | .missing _ => .configMissing

def parameter : ConfigCause → String
  | .invalid parameter _ | .missing parameter => parameter

end ConfigCause

end LedgerClient
