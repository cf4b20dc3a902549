import LedgerClient.Crypto.Keccak

/-!
# Addresses

An address is twenty bytes. It is written in lower-case hexadecimal behind `0x`, or with a
checksum: a letter is a capital where the digest of the lower-case digits has a nibble of at
least eight at the same place.
-/

namespace LedgerClient

structure Address where
  bytes : Bytes
  length_eq : bytes.length = 20
  deriving DecidableEq

namespace Address

def size : Nat := 20

theorem ext {a b : Address} (h : a.bytes = b.bytes) : a = b := by
  cases a; cases b; simp_all

def zero : Address := ⟨Bytes.zeros 20, Bytes.zeros_length 20⟩

instance : Inhabited Address := ⟨zero⟩

/-- The address of exactly twenty bytes. -/
def ofBytes? (bs : Bytes) : Option Address :=
  if h : bs.length = 20 then some ⟨bs, h⟩ else none

theorem ofBytes?_bytes (a : Address) : ofBytes? a.bytes = some a := by
  simp [ofBytes?, a.length_eq]

theorem bytes_of_ofBytes? {bs : Bytes} {a : Address} (h : ofBytes? bs = some a) : a.bytes = bs := by
  unfold ofBytes? at h
  split at h
  · cases h
    rfl
  · cases h

/-- The last twenty bytes of the digest of a message. -/
def ofDigest (message : Bytes) : Address :=
  ⟨(Keccak.digest message).drop 12, by simp [Keccak.digest_length]⟩

def hexChars (a : Address) : List Char := a.bytes.toHexChars

def hex (a : Address) : String := "0x" ++ String.ofList a.hexChars

def upperHex (c : Char) : Char :=
  if 97 ≤ c.toNat ∧ c.toNat ≤ 102 then Char.ofNat (c.toNat - 32) else c

/-- Capitals as the nibbles of a digest demand. -/
def checksumChars : List Char → List Char → List Char
  | c :: rest, nibble :: nibbles =>
    (if 8 ≤ (Bytes.hexValue? nibble).getD 0 then upperHex c else c) :: checksumChars rest nibbles
  | rest, _ => rest

def checksum (a : Address) : String :=
  let digits := a.hexChars
  let digest := Keccak.digest (digits.map fun c => UInt8.ofNat c.toNat)
  "0x" ++ String.ofList (checksumChars digits digest.toHexChars)

theorem checksumChars_nil (nibbles : List Char) : checksumChars [] nibbles = [] := by
  cases nibbles <;> rfl

end Address

end LedgerClient
