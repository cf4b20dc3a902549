import LedgerClient.Proofs.Bytes
import LedgerClient.Proofs.Signer.Key

/-!
# Signing, recovery and verification agree

A backend promises that its signatures are in range and recover to the public key of the key that
made them. For every such backend a signature of the signer recovers to the address of the key, in
whatever form the key was given, and is verified for that address and for no other. The offset of
the recovery indicator makes no difference.
-/

namespace LedgerClient

/-- Both scalars lie between zero and the order, and the parity is that of one bit. -/
def RawSignature.InRange (raw : RawSignature) : Prop :=
  0 < raw.r ∧ raw.r < Curve.order ∧ 0 < raw.s ∧ raw.s < Curve.order ∧ raw.parity ≤ 1

/-- The promises of a backend for keys in range and digests of 32 bytes. -/
structure SigningBackend.KeepsPromises (backend : SigningBackend) : Prop where
  length_publicKey : ∀ {key : Bytes}, Signer.IsKey key → (backend.publicKey key).length = 64
  inRange_sign : ∀ {digest key : Bytes}, digest.length = Signer.hashLength → Signer.IsKey key →
    (backend.sign digest key).InRange
  recover_sign : ∀ {digest key : Bytes}, digest.length = Signer.hashLength → Signer.IsKey key →
    backend.recover digest (backend.sign digest key) = .ok (backend.publicKey key)

namespace Signer

variable {backend : SigningBackend} {raw digest : Bytes} {key hash : Value}

/-! ## The checks of a signature -/

theorem inScalarRange_int {n : Nat} (hpos : 0 < n) (hlt : n < Curve.order) :
    inScalarRange (.int n) = .ok true := by
  have habove : Value.isAbove (.int n) 0 = .ok true := by
    show Except.ok (some (compare (n : Int) 0) == some .gt) = _
    rw [Int.compare_eq_gt.mpr (by omega)]
    rfl
  have hbelow : Value.isBelow (.int n) Curve.order = .ok true := by
    rw [Value.isBelow_int, Int.compare_eq_lt.mpr (by omega)]
    rfl
  rw [inScalarRange, habove]
  exact hbelow

/-- The indicator of a parity, with the offset or without it. -/
def IsIndicatorOf (parity : Nat) (v : Int) : Prop := v = parity ∨ v = parity + Signature.recoveryOffset

theorem isIndicator_int {parity : Nat} {v : Int} (hparity : parity ≤ 1) (hv : IsIndicatorOf parity v) :
    isIndicator (.int v) = .ok true ∧ Signature.recoveryOf (.int v) = .ok (.int parity) := by
  have hcases : parity = 0 ∨ parity = 1 := by omega
  rcases hcases with rfl | rfl <;> rcases hv with rfl | rfl <;> exact ⟨rfl, rfl⟩

/-- A signature in range passes every check and reaches the backend as it was made. -/
theorem backendSignature_toValue {made : RawSignature} (h : made.InRange) {v : Int}
    (hv : IsIndicatorOf made.parity v) :
    backendSignature (Signature.toValue ⟨made.r, made.s, v⟩) = .ok made := by
  obtain ⟨hr, hr', hs, hs', hparity⟩ := h
  obtain ⟨hindicator, hrecovery⟩ := isIndicator_int hparity hv
  show (do
    if !(← Result.ofFault (isIndicator (.int v))) then _
    else if !(← Result.ofFault (inScalarRange (.int made.r))) then _
    else if !(← Result.ofFault (inScalarRange (.int made.s))) then _
    else
      let parity ← strictInteger (← Result.ofFault (Signature.recoveryOf (.int v)))
      let rInt ← strictInteger (.int made.r)
      let sInt ← strictInteger (.int made.s)
      return (⟨parity.toNat, rInt.toNat, sInt.toNat⟩ : RawSignature)) = _
  rw [hindicator, inScalarRange_int hr hr', inScalarRange_int hs hs', hrecovery]
  rfl

/-! ## One signature -/

/-- The address that a key controls. -/
def addressOf (backend : SigningBackend) (raw : Bytes) : Address :=
  .ofDigest (backend.publicKey raw)

theorem deriveAddress_of_key (hb : backend.KeepsPromises) (hform : KeyForm raw key)
    (hkey : IsKey raw) : deriveAddress backend key = .ok (addressOf backend raw) := by
  have hlength : (4 :: backend.publicKey raw).length = 65 := by
    rw [List.length_cons, hb.length_publicKey hkey]
  rw [deriveAddress, publicKey, loadKey_eq_ok_iff.mpr ⟨hform, hkey⟩]
  show Address.ofPublicKey (4 :: backend.publicKey raw) = _
  rw [Address.ofPublicKey, if_pos hlength]
  rfl

theorem signHash_of_key (hform : KeyForm raw key) (hkey : IsKey raw)
    (hhash : checkHash hash = .ok digest) :
    signHash backend hash key = .ok (ofRaw (backend.sign digest raw)) := by
  rw [signHash, hhash, loadKey_eq_ok_iff.mpr ⟨hform, hkey⟩]
  rfl

theorem length_of_checkHash (h : checkHash hash = .ok digest) : digest.length = hashLength := by
  unfold checkHash at h
  split at h
  · split at h
    · next hlen =>
      cases h
      exact hlen
    · cases h
  · cases h

/-- The indicator of a made signature may stand with the offset or without it. -/
theorem recoverHash_of_sign (hb : backend.KeepsPromises) (hkey : IsKey raw)
    (hhash : checkHash hash = .ok digest) {v : Int}
    (hv : IsIndicatorOf (backend.sign digest raw).parity v) :
    recoverHash backend hash
        (Signature.toValue ⟨(backend.sign digest raw).r, (backend.sign digest raw).s, v⟩) =
      .ok (addressOf backend raw) := by
  have hlen := length_of_checkHash hhash
  rw [recoverHash, hhash, backendSignature_toValue (hb.inRange_sign hlen hkey) hv]
  simp only [bind, Except.bind, hb.recover_sign hlen hkey]
  exact Address.ofPublicKey_64 (hb.length_publicKey hkey)

/-- Recovery answers an address, and verification holds for it in every notation and for no other. -/
def Authenticates (a : Address) (recovered : Result Address) (verified : Value → Result Verdict) :
    Prop :=
  recovered = .ok a ∧ ∀ expected b, Address.coerce "expected_address" expected = .ok b →
    verified expected = .ok ⟨decide (a = b), none⟩

theorem authenticates_hash {sig : Value} {a : Address} (h : recoverHash backend hash sig = .ok a) :
    Authenticates a (recoverHash backend hash sig) (verifyHash backend hash sig) := by
  refine ⟨h, fun expected b hb => ?_⟩
  rw [verifyHash, hb]
  show judge b (recoverHash backend hash sig) = _
  rw [h]
  rfl

/-- A message stands for its digest. -/
theorem authenticates_message {message sig : Value} {bytes : Bytes} {a : Address}
    (hmessage : message.toBytes = .ok bytes)
    (h : recoverHash backend (.bytes (Keccak.digest bytes)) sig = .ok a) :
    Authenticates a (recover backend message sig) (verify backend message sig) := by
  have hdigest : messageHash message = .ok (Keccak.digest bytes) := by
    rw [messageHash, hmessage]
    rfl
  obtain ⟨-, hverified⟩ := authenticates_hash h
  refine ⟨?_, fun expected b hb => ?_⟩
  · rw [recover, hdigest]
    exact h
  · rw [verify, hdigest]
    exact hverified expected b hb

theorem checkHash_digest (bytes : Bytes) :
    checkHash (.bytes (Keccak.digest bytes)) = .ok (Keccak.digest bytes) := by
  have hlen : (Keccak.digest bytes).length = hashLength := Keccak.digest_length bytes
  simp only [checkHash, Value.bytes?, hlen, if_true]

/-- The indicator of a made signature, with its offset and without it. -/
theorem recoverHash_of_ofRaw (hb : backend.KeepsPromises) (hkey : IsKey raw)
    (hhash : checkHash hash = .ok digest) :
    ∀ v ∈ [(ofRaw (backend.sign digest raw)).v, (ofRaw (backend.sign digest raw)).v - 27],
      recoverHash backend hash (Signature.toValue { ofRaw (backend.sign digest raw) with v }) =
        .ok (addressOf backend raw) := by
  intro v hv
  refine recoverHash_of_sign hb hkey hhash ?_
  rcases List.mem_cons.mp hv with rfl | hv
  · exact .inr rfl
  · rw [List.mem_singleton.mp hv]
    exact .inl (Int.add_sub_cancel _ _)

theorem indicator_of_ofRaw {made : RawSignature} (h : made.InRange) :
    (ofRaw made).v = 27 ∨ (ofRaw made).v = 28 := by
  have hparity := h.2.2.2.2
  show (made.parity : Int) + 27 = 27 ∨ (made.parity : Int) + 27 = 28
  omega

/-- Whatever is signed with a key, a hash, a message or a payload, recovery answers the address of the
key and verification holds for that address alone, with the offset of the indicator or without. -/
theorem sign_recover_verify (hb : backend.KeepsPromises) (hform : KeyForm raw key)
    (hkey : IsKey raw) : ∃ a, deriveAddress backend key = .ok a ∧
    (∀ hash digest, checkHash hash = .ok digest → ∃ sig, signHash backend hash key = .ok sig ∧
      (sig.v = 27 ∨ sig.v = 28) ∧ ∀ v ∈ [sig.v, sig.v - 27],
        Authenticates a (recoverHash backend hash (Signature.toValue { sig with v }))
          (verifyHash backend hash (Signature.toValue { sig with v }))) ∧
    (∀ message bytes, message.toBytes = .ok bytes → ∃ sig, sign backend message key = .ok sig ∧
      (sig.v = 27 ∨ sig.v = 28) ∧ ∀ v ∈ [sig.v, sig.v - 27],
        Authenticates a (recover backend message (Signature.toValue { sig with v }))
          (verify backend message (Signature.toValue { sig with v }))) ∧
    (∀ (p : Payload) bytes, p.encode = .ok bytes → ∃ sig hash,
      p.signatureHash = .ok hash ∧ signPayload backend p key = .ok sig ∧
      (sig.v = 27 ∨ sig.v = 28) ∧ ∀ v ∈ [sig.v, sig.v - 27],
        Authenticates a (recoverHash backend (.bytes hash) (Signature.toValue { sig with v }))
          (verifyHash backend (.bytes hash) (Signature.toValue { sig with v })) ∧
        Authenticates a (recover backend (.bytes bytes) (Signature.toValue { sig with v }))
          (verify backend (.bytes bytes) (Signature.toValue { sig with v }))) := by
  refine ⟨addressOf backend raw, deriveAddress_of_key hb hform hkey, ?_, ?_, ?_⟩
  · intro hash digest hhash
    refine ⟨_, signHash_of_key hform hkey hhash, ?_, fun v hv => ?_⟩
    · exact indicator_of_ofRaw (hb.inRange_sign (length_of_checkHash hhash) hkey)
    · exact authenticates_hash (recoverHash_of_ofRaw hb hkey hhash v hv)
  · intro message bytes hmessage
    have hhash := checkHash_digest bytes
    refine ⟨ofRaw (backend.sign (Keccak.digest bytes) raw), ?_, ?_, fun v hv => ?_⟩
    · rw [sign, messageHash, hmessage]
      exact signHash_of_key hform hkey hhash
    · exact indicator_of_ofRaw (hb.inRange_sign (length_of_checkHash hhash) hkey)
    · exact authenticates_message hmessage (recoverHash_of_ofRaw hb hkey hhash v hv)
  · intro p bytes hencode
    have hhash := checkHash_digest bytes
    refine ⟨ofRaw (backend.sign (Keccak.digest bytes) raw), Keccak.digest bytes, ?_, ?_, ?_,
      fun v hv => ⟨?_, ?_⟩⟩
    · rw [Payload.signatureHash, hencode]
      rfl
    · rw [signPayload, Payload.signatureHash, hencode]
      exact signHash_of_key hform hkey hhash
    · exact indicator_of_ofRaw (hb.inRange_sign (length_of_checkHash hhash) hkey)
    · exact authenticates_hash (recoverHash_of_ofRaw hb hkey hhash v hv)
    · exact authenticates_message rfl (recoverHash_of_ofRaw hb hkey hhash v hv)

/-! ## A key and a hash -/

def unitKey : Bytes := Bytes.ofNat 32 1

/-- The digest of `hello`. -/
def greeting : Bytes :=
  Bytes.ofNat 32 0x1c8aff950685c2ed4bc3174f3472287b56d9517b9c948127319a09a7a36deac8

/-- The signature of the greeting with the unit key on the curve. -/
def recorded : RawSignature :=
  ⟨0, 0x433ec3d37e4f1253df15e2dea412fed8e915737730f74b3dfb1353268f932ef5,
    0x557c9158e0b34bce39de28d11797b42e9b1acb2749230885fe075aedc3e491a4⟩

/-- It answers for the unit key and the greeting as the curve does, and keeps its promises for all
other keys and digests by writing the key into the signature. -/
def standIn : SigningBackend where
  publicKey key := if key = unitKey then secp256k1.publicKey key else key ++ key
  sign digest key := if key = unitKey ∧ digest = greeting then recorded else ⟨0, key.toNat, 1⟩
  recover digest made :=
    if made = recorded then secp256k1.recover digest made
    else
      let key := Bytes.ofNat 32 made.r
      .ok (if key = unitKey then secp256k1.publicKey key else key ++ key)

theorem recover_recorded :
    secp256k1.recover greeting recorded = .ok (secp256k1.publicKey unitKey) := by
  have hsome : (secp256k1.recover greeting recorded).toOption = some (secp256k1.publicKey unitKey) := by
    decide +kernel
  cases h : secp256k1.recover greeting recorded with
  | error why =>
    rw [h] at hsome
    cases hsome
  | ok key =>
    rw [h] at hsome
    rw [Option.some.inj hsome]

theorem keepsPromises_standIn : standIn.KeepsPromises where
  length_publicKey {key} hkey := by
    show (if key = unitKey then secp256k1.publicKey key else key ++ key).length = 64
    split
    · exact Curve.Point.toBytes_length _
    · rw [List.length_append, hkey.1]
      rfl
  inRange_sign {digest key} _ hkey := by
    show (if key = unitKey ∧ digest = greeting then recorded else ⟨0, key.toNat, 1⟩).InRange
    split
    · exact ⟨by decide, by decide, by decide, by decide, by decide⟩
    · exact ⟨hkey.2.1, hkey.2.2, Nat.one_pos, (by decide : 1 < Curve.order), Nat.zero_le 1⟩
  recover_sign {digest key} _ hkey := by
    show standIn.recover digest
      (if key = unitKey ∧ digest = greeting then recorded else ⟨0, key.toNat, 1⟩) = _
    split
    · next h =>
      rw [h.1, h.2]
      exact recover_recorded
    · have hmade : (⟨0, key.toNat, 1⟩ : RawSignature) ≠ recorded := by
        intro h
        exact absurd (RawSignature.mk.inj h).2.2 (by decide)
      have hread : Bytes.ofNat 32 key.toNat = key := by
        have hlen : key.length = 32 := hkey.1
        rw [← hlen]
        exact Bytes.ofNat_toNat key
      show (if (⟨0, key.toNat, 1⟩ : RawSignature) = recorded then _ else _) = _
      rw [if_neg hmade, hread]
      rfl

/-- The unit key as text with a marker and blanks around it. -/
def unitKeyText : Value :=
  .text (String.ofList ([' '] ++ (['0', 'X'] ++ (List.replicate 63 '0' ++ ['1'])) ++ ['\n']))

theorem keyForm_unitKeyText : KeyForm unitKey unitKeyText := by
  have hone : ∀ b, Text.isBlank b = true → ∀ c ∈ [b], Text.isBlank c = true := by
    intro b hb c hc
    rw [List.mem_singleton.mp hc]
    exact hb
  exact .text (hone ' ' rfl) (by decide) (by decide) (hone '\n' rfl)

theorem sign_greeting : ∃ a sig, deriveAddress standIn unitKeyText = .ok a ∧
    signHash standIn (.bytes greeting) unitKeyText = .ok sig ∧
    recoverHash standIn (.bytes greeting) (Signature.toValue { sig with v := sig.v - 27 }) = .ok a ∧
    verifyHash standIn (.bytes greeting) sig.toValue (.address a) = .ok ⟨true, none⟩ := by
  have hkey : IsKey unitKey := ⟨by decide, by decide, by decide⟩
  obtain ⟨a, hderived, hhash, -⟩ := sign_recover_verify keepsPromises_standIn keyForm_unitKeyText hkey
  obtain ⟨sig, hsig, -, hall⟩ := hhash (.bytes greeting) greeting rfl
  obtain ⟨hrecovered, -⟩ := hall (sig.v - 27) (List.mem_cons_of_mem _ List.mem_cons_self)
  obtain ⟨-, hverified⟩ := hall sig.v List.mem_cons_self
  refine ⟨a, sig, hderived, hsig, hrecovered, ?_⟩
  rw [hverified (.address a) a rfl, decide_eq_true rfl]

end Signer

end LedgerClient
