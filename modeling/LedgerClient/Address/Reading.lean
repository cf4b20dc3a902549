import LedgerClient.Address.Basic
import LedgerClient.Text.Utf8
import LedgerClient.Value.Conversion

/-!
# Reading addresses

An address is read from forty hexadecimal digits in any case, behind an optional `0x` or `0X`, or
taken from twenty bytes. Every refusal names what was expected.
-/

namespace LedgerClient.Address

def failAddress {α : Type} (why : InvalidReason) : Result α := .fail (.invalidField "address" why)

/-- Drops one `0x` or `0X`. -/
def dropMarker : List Char → List Char
  | '0' :: 'x' :: rest => rest
  | '0' :: 'X' :: rest => rest
  | s => s

def ofHex (s : String) : Result Address :=
  let digits := dropMarker s.toList
  if digits.length ≠ 2 * size then failAddress (.hexCount (2 * size) digits.length)
  else
    match (Bytes.ofHexChars digits).bind ofBytes? with
    | some a => .ok a
    | none => failAddress (.notHex (Text.quoted s))

/-- A lone half is no digit, but the length is looked at first. -/
def ofTorn (t : Torn) : Result Address :=
  let digits := dropMarker t.mended.toList
  if digits.length ≠ 2 * size then failAddress (.hexCount (2 * size) digits.length)
  else failAddress (.notHex t.quoted)

def ofByteString (bs : Bytes) : Result Address :=
  match ofBytes? bs with
  | some a => .ok a
  | none => failAddress (.byteCount size bs.length)

/-- Accepts bytes only. -/
def ofValue (v : Value) : Result Address :=
  match v.bytes? with
  | some bs => ofByteString bs
  | none => .failExpected "address" "bytes" v

/-- Accepts text only. -/
def decode (v : Value) : Result Address :=
  match v with
  | .text s => ofHex s
  | .torn t => ofTorn t
  | _ => .failExpected "address" "str" v

/-- Accepts an address, text or bytes; another type is reported for the given field. -/
def coerce (field : String) (v : Value) : Result Address :=
  match v with
  | .address a => .ok a
  | .text s => ofHex s
  | .torn t => ofTorn t
  | .bytes bs | .buffer bs => ofByteString bs
  | _ => .fail (.invalidField field (.notAddress v.typeName))

def encode (v : Value) : Result String :=
  match v with
  | .address a => .ok a.checksum
  | _ => .failExpected "address" "Address" v

def isValid (v : Value) : Bool := (decode v).toBool

theorem coerce_address (field : String) (a : Address) : coerce field (.address a) = .ok a := rfl

theorem ofByteString_bytes (a : Address) : ofByteString a.bytes = .ok a := by
  simp [ofByteString, ofBytes?_bytes]

/-! ## Derivation -/

/-- The address of a public key of 64 bytes, or of 65 with a leading `0x04`. -/
def ofPublicKey (key : Bytes) : Result Address :=
  if key.length = 65 then
    if key.headD 0 = 4 then .ok (ofDigest (key.drop 1))
    else .fail (.ofCrypto (.keyMarker (key.headD 0).toNat))
  else if key.length = 64 then .ok (ofDigest key)
  else .fail (.ofCrypto (.publicKeyLength key.length))

theorem ofPublicKey_64 {key : Bytes} (h : key.length = 64) :
    ofPublicKey key = .ok (ofDigest key) := by simp [ofPublicKey, h]

def ofPublicKeyValue (v : Value) : Result Address := do
  let key ← Result.ofFault v.toBytes
  ofPublicKey key

def tokenAccountSeed : Bytes := Text.utf8 "token_account"

/-- The account of a wallet for one token. -/
def tokenAccount (wallet mint : Address) : Address :=
  ofDigest (wallet.bytes ++ mint.bytes ++ tokenAccountSeed)

def deriveTokenAccount (wallet mint : Value) : Result Address := do
  let w ← coerce "wallet" wallet
  let m ← coerce "mint" mint
  return tokenAccount w m

end LedgerClient.Address
