/-!
# Error codes

The first digit names the family: transport, service, decoding, encoding, cryptography,
confirmation, configuration.
-/

namespace LedgerClient

inductive ErrorCode where
  | connectionFailed
  | timeout
  | transportFailed
  | apiValidation
  | apiNotFound
  | apiConflict
  | apiRateLimited
  | apiBusiness
  | apiServer
  | apiAuth
  | apiUnknown
  | invalidJson
  | unexpectedShape
  | missingField
  | outOfRange
  | invalidValue
  | unsupportedPayload
  | invalidKey
  | invalidSignature
  | recoveryFailed
  | confirmationTimeout
  | configInvalid
  | configMissing
  deriving DecidableEq, Repr

namespace ErrorCode

def all : List ErrorCode :=
  [connectionFailed, timeout, transportFailed, apiValidation, apiNotFound, apiConflict,
    apiRateLimited, apiBusiness, apiServer, apiAuth, apiUnknown, invalidJson, unexpectedShape,
    missingField, outOfRange, invalidValue, unsupportedPayload, invalidKey, invalidSignature,
    recoveryFailed, confirmationTimeout, configInvalid, configMissing]

def number : ErrorCode → String
  | .connectionFailed => "1001"
  | .timeout => "1002"
  | .transportFailed => "1003"
  | .apiValidation => "2001"
  | .apiNotFound => "2002"
  | .apiConflict => "2003"
  | .apiRateLimited => "2004"
  | .apiBusiness => "2005"
  | .apiServer => "2006"
  | .apiAuth => "2007"
  | .apiUnknown => "2099"
  | .invalidJson => "3001"
  | .unexpectedShape => "3002"
  | .missingField => "4001"
  | .outOfRange => "4002"
  | .invalidValue => "4003"
  | .unsupportedPayload => "4004"
  | .invalidKey => "5001"
  | .invalidSignature => "5002"
  | .recoveryFailed => "5003"
  | .confirmationTimeout => "6001"
  | .configInvalid => "9001"
  | .configMissing => "9002"

def identifier : ErrorCode → String
  | .connectionFailed => "TRANSPORT_CONNECTION_FAILED"
  | .timeout => "TRANSPORT_TIMEOUT"
  | .transportFailed => "TRANSPORT_FAILED"
  | .apiValidation => "API_VALIDATION"
  | .apiNotFound => "API_NOT_FOUND"
  | .apiConflict => "API_CONFLICT"
  | .apiRateLimited => "API_RATE_LIMITED"
  | .apiBusiness => "API_BUSINESS"
  | .apiServer => "API_SERVER"
  | .apiAuth => "API_AUTH"
  | .apiUnknown => "API_UNKNOWN"
  | .invalidJson => "DECODE_INVALID_JSON"
  | .unexpectedShape => "DECODE_UNEXPECTED_SHAPE"
  | .missingField => "ENCODE_MISSING_FIELD"
  | .outOfRange => "ENCODE_OUT_OF_RANGE"
  | .invalidValue => "ENCODE_INVALID_VALUE"
  | .unsupportedPayload => "ENCODE_UNSUPPORTED_PAYLOAD"
  | .invalidKey => "CRYPTO_INVALID_KEY"
  | .invalidSignature => "CRYPTO_INVALID_SIGNATURE"
  | .recoveryFailed => "CRYPTO_RECOVERY_FAILED"
  | .confirmationTimeout => "CONFIRMATION_TIMEOUT"
  | .configInvalid => "CONFIG_INVALID"
  | .configMissing => "CONFIG_MISSING"

def ofNumber? (s : String) : Option ErrorCode := all.find? (·.number = s)

theorem mem_all (c : ErrorCode) : c ∈ all := by cases c <;> decide

theorem ofNumber?_number (c : ErrorCode) : ofNumber? c.number = some c := by cases c <;> decide

end ErrorCode

end LedgerClient
