/-!
# Kinds of errors

Every error of the client is of one kind, and of the wider kinds above it.
-/

namespace LedgerClient

inductive ErrorKind where
  | general
  | transport
  /-- The service answered with a status outside the successful ones. -/
  | api
  | decoding
  | encoding
  | crypto
  | invalidKey
  | invalidSignature
  | confirmationTimeout
  | configuration
  deriving DecidableEq, Repr

namespace ErrorKind

def name : ErrorKind → String
  | .general => "OneMoneyError"
  | .transport => "TransportError"
  | .api => "ApiError"
  | .decoding => "DecodingError"
  | .encoding => "EncodingError"
  | .crypto => "CryptoError"
  | .invalidKey => "InvalidKeyError"
  | .invalidSignature => "InvalidSignatureError"
  | .confirmationTimeout => "ConfirmationTimeoutError"
  | .configuration => "ConfigurationError"

/-- The kinds above a kind, the nearest first. -/
def wider : ErrorKind → List ErrorKind
  | .general => []
  | .invalidKey | .invalidSignature => [.crypto, .general]
  | _ => [.general]

/-- A kind falls under itself and under the kinds above it. -/
def isUnder (k wide : ErrorKind) : Bool := k = wide || k.wider.contains wide

theorem isUnder_self (k : ErrorKind) : k.isUnder k = true := by simp [isUnder]

theorem isUnder_general (k : ErrorKind) : k.isUnder .general = true := by cases k <;> decide

theorem isUnder_trans {a b c : ErrorKind} (hab : a.isUnder b = true) (hbc : b.isUnder c = true) :
    a.isUnder c = true := by
  revert hab hbc
  cases a <;> cases b <;> cases c <;> decide

end ErrorKind

end LedgerClient
