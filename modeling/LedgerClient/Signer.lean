import LedgerClient.Crypto.Recoverable
import LedgerClient.Payload.Encoding
import LedgerClient.Value.Number

/-!
# Signing, recovery and verification

A key is 32 bytes or their hexadecimal text. Every check of the key, the hash and the signature
stands before the backend is asked, and no message shows a part of the key.
-/

namespace LedgerClient.Signer

def keyLength : Nat := 32

def hashLength : Nat := 32

def failKey {α : Type} (cause : KeyCause) : Result α := .fail (.invalidKey cause none)

def failSignature {α : Type} (cause : SignatureCause) : Result α :=
  .fail (.invalidSignature cause none)

/-- The bytes of a key's digits, blanks between the pairs left out. -/
def keyDigits (s : List Char) : Option Bytes := Bytes.ofSpacedHexChars Text.isAsciiBlank s

def keyOfText (s : String) : Result Bytes :=
  let digits := Address.dropMarker (Text.trimChars s.toList)
  if digits.length ≠ 2 * keyLength then failKey (.hexCount digits.length)
  else match keyDigits digits with
    | some raw => .ok raw
    | none => failKey .notHex

/-- A lone half is no digit, but the length is looked at first. -/
def keyOfTorn (t : Torn) : Result Bytes :=
  let digits := Address.dropMarker (Text.trimChars t.mended.toList)
  if digits.length ≠ 2 * keyLength then failKey (.hexCount digits.length) else failKey .notHex

def keyOfBytes (raw : Bytes) : Result Bytes :=
  if raw.length ≠ keyLength then failKey (.byteCount raw.length) else .ok raw

def rawKey (key : Value) : Result Bytes :=
  match key with
  | .text s => keyOfText s
  | .torn t => keyOfTorn t
  | .bytes raw | .buffer raw => keyOfBytes raw
  | _ => failKey (.wrongType key.typeName)

/-- A key whose number lies between zero and the order of the curve. -/
def loadKey (key : Value) : Result Bytes := do
  let raw ← rawKey key
  if 0 < raw.toNat ∧ raw.toNat < Curve.order then
    if raw.length = keyLength then .ok raw else failKey .rejected
  else failKey .outsideRange

theorem keyOfBytes_ok {raw : Bytes} (h : raw.length = keyLength) : keyOfBytes raw = .ok raw := by
  simp [keyOfBytes, h]

def checkHash (hash : Value) : Result Bytes :=
  match hash.bytes? with
  | some digest => if digest.length = hashLength then .ok digest else .fail (.ofCrypto .hashLength)
  | none => .fail (.ofCrypto .hashLength)

def messageHash (message : Value) : Result Bytes := do
  let bytes ← Result.ofFault message.toBytes
  return Keccak.digest bytes

/-! ## Signing -/

def ofRaw (raw : RawSignature) : Signature :=
  ⟨raw.r, raw.s, (raw.parity : Int) + Signature.recoveryOffset⟩

def signHash (backend : SigningBackend) (hash key : Value) : Result Signature := do
  let digest ← checkHash hash
  let raw ← loadKey key
  return ofRaw (backend.sign digest raw)

def sign (backend : SigningBackend) (message key : Value) : Result Signature := do
  let digest ← messageHash message
  signHash backend (.bytes digest) key

def signPayload (backend : SigningBackend) (p : Payload) (key : Value) : Result Signature := do
  let digest ← p.signatureHash
  signHash backend (.bytes digest) key

/-! ## Recovery -/

/-- A scalar strictly between zero and the order. -/
def inScalarRange (v : Value) : Except Fault Bool := do
  if ← v.isAbove 0 then v.isBelow Curve.order else return false

/-- The value is one of these integers. -/
def isAmong (v : Value) : List Int → Except Fault Bool
  | [] => .ok false
  | n :: rest => do
    if ← v.equalsInt n then return true
    isAmong v rest

def isIndicator (v : Value) : Except Fault Bool := isAmong v [0, 1, 27, 28]

/-- The backend takes integers only, not even truth values. -/
def strictInteger (v : Value) : Result Int :=
  match v with
  | .int n => .ok n
  | .decimal _ => failSignature (.malformed ("decimal." ++ v.typeName))
  | _ => failSignature (.malformed v.typeName)

def backendSignature (signature : Value) : Result RawSignature :=
  match signature with
  | .signature r s v => do
    if !(← Result.ofFault (isIndicator v)) then
      let shown ← Result.ofFault v.display
      failSignature (.indicator shown)
    else if !(← Result.ofFault (inScalarRange r)) then failSignature .rOutside
    else if !(← Result.ofFault (inScalarRange s)) then failSignature .sOutside
    else
      let parity ← strictInteger (← Result.ofFault (Signature.recoveryOf v))
      let rInt ← strictInteger r
      let sInt ← strictInteger s
      return ⟨parity.toNat, rInt.toNat, sInt.toNat⟩
  | _ => failSignature (.wrongType signature.typeName)

def recoveryError : RecoveryFailure → ClientError
  | .noPoint => .recoveryFailed "Invalid signature" (some "BadSignature")
  | .infinity => .recoveryFailed "InvalidSignature" (some "BadSignature")

def recoverHash (backend : SigningBackend) (hash signature : Value) : Result Address := do
  let digest ← checkHash hash
  let raw ← backendSignature signature
  match backend.recover digest raw with
  | .ok key => Address.ofPublicKey key
  | .error why => .fail (recoveryError why)

def recover (backend : SigningBackend) (message signature : Value) : Result Address := do
  let digest ← messageHash message
  recoverHash backend (.bytes digest) signature

/-! ## Verification -/

/-- A verdict, with the error that led to a refusal when recovery failed. -/
structure Verdict where
  holds : Bool
  why : Option ClientError

def isCryptoError (e : ClientError) : Bool := e.kind.isUnder .crypto

def judge (expected : Address) (recovered : Result Address) : Result Verdict :=
  match recovered with
  | .ok a => .ok ⟨decide (a = expected), none⟩
  | .error (.client e) => if isCryptoError e then .ok ⟨false, some e⟩ else .error (.client e)
  | .error (.fault f) => .error (.fault f)

def verifyHash (backend : SigningBackend) (hash signature expected : Value) : Result Verdict := do
  let address ← Address.coerce "expected_address" expected
  judge address (recoverHash backend hash signature)

def verify (backend : SigningBackend) (message signature expected : Value) : Result Verdict := do
  let digest ← messageHash message
  verifyHash backend (.bytes digest) signature expected

/-! ## Derived values -/

/-- The uncompressed public key of 65 bytes. -/
def publicKey (backend : SigningBackend) (key : Value) : Result Bytes := do
  let raw ← loadKey key
  return 4 :: backend.publicKey raw

def deriveAddress (backend : SigningBackend) (key : Value) : Result Address := do
  let full ← publicKey backend key
  Address.ofPublicKey full

end LedgerClient.Signer
