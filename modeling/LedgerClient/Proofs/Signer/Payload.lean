import LedgerClient.Proofs.Signer.Agreement

/-!
# Signing a payload

A signature of a payload is the backend's on the digest of its bytes. The payload is encoded before
the key is looked at, and nothing else can fail.
-/

namespace LedgerClient.Signer

variable {backend : SigningBackend} {p : Payload} {key : Value}

theorem signPayload_eq (backend : SigningBackend) (p : Payload) (key : Value) :
    signPayload backend p key = do
      let bs ← p.encode
      let raw ← loadKey key
      return ofRaw (backend.sign (Keccak.digest bs) raw) := by
  unfold signPayload Payload.signatureHash
  cases p.encode with
  | error f => rfl
  | ok bs =>
    show signHash backend (.bytes (Keccak.digest bs)) key = _
    rw [signHash, checkHash_digest]
    rfl

theorem signPayload_eq_ok_iff {sig : Signature} :
    signPayload backend p key = .ok sig ↔
      ∃ bs raw, p.encode = .ok bs ∧ loadKey key = .ok raw ∧
        ofRaw (backend.sign (Keccak.digest bs) raw) = sig := by
  rw [signPayload_eq]
  simp only [bind_eq_ok, pure_eq_ok]
  constructor
  · rintro ⟨bs, hbs, raw, hraw, hsig⟩
    exact ⟨bs, raw, hbs, hraw, hsig⟩
  · rintro ⟨bs, raw, hbs, hraw, hsig⟩
    exact ⟨bs, hbs, raw, hraw, hsig⟩

theorem loadKey_unitKey : loadKey (.bytes unitKey) = .ok unitKey :=
  loadKey_eq_ok_iff.mpr ⟨.bytes, by decide, by decide, by decide⟩

end LedgerClient.Signer
