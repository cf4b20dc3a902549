import LedgerClient.Crypto.Curve
import LedgerClient.Crypto.Sha256

/-!
# Recoverable signatures

A backend signs a digest of 32 bytes with a key of 32 bytes, recovers the public key from a
signature, and derives a public key from a private one. The signer above it needs nothing else
of the curve, so its laws hold for every backend that keeps the stated promises.

The backend for secp256k1 takes its nonce from the key and the digest by a keyed hash, and of the
two signatures with one nonce returns that with the smaller second scalar.
-/

namespace LedgerClient

/-- Two scalars and the parity of the nonce point. -/
structure RawSignature where
  parity : Nat
  r : Nat
  s : Nat
  deriving DecidableEq, Repr

inductive RecoveryFailure where
  /-- The first scalar is no coordinate of a point. -/
  | noPoint
  /-- The recovered point is the one at infinity. -/
  | infinity
  deriving DecidableEq, Repr

structure SigningBackend where
  publicKey : (key : Bytes) → Bytes
  sign : (digest key : Bytes) → RawSignature
  recover : (digest : Bytes) → RawSignature → Except RecoveryFailure Bytes

namespace Recoverable

open Curve

/-- The nonce is a function of the key and of the digest reduced to a scalar. -/
def nonce (digest key : Bytes) : Nat :=
  let scalar := Bytes.ofNat 32 (digest.toNat % order)
  let v0 : Bytes := List.replicate 32 1
  let k0 : Bytes := List.replicate 32 0
  let k1 := Sha256.keyed k0 (v0 ++ [0] ++ key ++ scalar)
  let v1 := Sha256.keyed k1 v0
  let k2 := Sha256.keyed k1 (v1 ++ [1] ++ key ++ scalar)
  let v2 := Sha256.keyed k2 v1
  Bytes.toNat (Sha256.keyed k2 v2)

def sign (digest key : Bytes) : RawSignature :=
  let k := nonce digest key
  let (r, y) := (Point.times k Point.generator).affine
  let s := invert k order * (digest.toNat + r * key.toNat) % order
  if 2 * s < order then ⟨y % 2, r, s⟩ else ⟨1 - y % 2, r, order - s⟩

def publicKey (key : Bytes) : Bytes := (Point.times key.toNat Point.generator).toBytes

def recover (digest : Bytes) (signature : RawSignature) : Except RecoveryFailure Bytes :=
  match Point.lift? signature.r (signature.parity % 2 = 1) with
  | none => .error .noPoint
  | some point =>
    if signature.r % order = 0 ∨ signature.s % order = 0 then .error .noPoint
    else
      let fromDigest := Point.times ((order - digest.toNat % order) % order) Point.generator
      let sum := Point.add fromDigest (Point.times signature.s point)
      let key := Point.times (invert signature.r order) sum
      if key.isInfinity then .error .infinity else .ok key.toBytes

end Recoverable

def secp256k1 : SigningBackend := ⟨Recoverable.publicKey, Recoverable.sign, Recoverable.recover⟩

end LedgerClient
