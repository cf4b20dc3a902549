import LedgerClient.Proofs.Number.Integer
import LedgerClient.Proofs.Signer.Agreement
import LedgerClient.Proofs.Value.Order

/-!
# Verification answers

A signature whose parts are integers, however large, is refused by errors of the crypto family alone,
and verification turns these into a verdict. One thing stays outside: an indicator that is none of the
four known ones is shown in its error, and an integer beyond the limit of digits has no text. With such
an indicator verification ends with that fault instead of a verdict.
-/

namespace LedgerClient

namespace Signature

/-- The indicator without its offset. -/
def recoveryId (sig : Signature) : Int :=
  if recoveryOffset ≤ sig.v then sig.v - recoveryOffset else sig.v

/-- The indicator has a text. -/
def HasShownIndicator (sig : Signature) : Prop := sig.v.natAbs < Integer.textBound

theorem recoveryOf_int (sig : Signature) : recoveryOf (.int sig.v) = .ok (.int sig.recoveryId) := by
  unfold recoveryId
  split
  · next h => exact congrArg Except.ok (if_pos h)
  · next h => exact congrArg Except.ok (if_neg h)

end Signature

namespace Signer

/-! ## The checks of a signature of integers -/

/-- A parity, with the offset or without it. -/
def indicators : List Int := [0, 1, 27, 28]

theorem isAmong_int (v : Int) (ns : List Int) : isAmong (.int v) ns = .ok (decide (v ∈ ns)) := by
  induction ns with
  | nil => rfl
  | cons n rest ih =>
    rw [isAmong, Value.equalsInt_int]
    show (if decide (v = n) = true then Except.ok true else isAmong (.int v) rest) = _
    rw [ih]
    by_cases hv : v = n
    · simp [hv]
    · simp [hv]

def IsScalar (n : Int) : Prop := 0 < n ∧ n < Curve.order

instance (n : Int) : Decidable (IsScalar n) := inferInstanceAs (Decidable (_ ∧ _))

theorem inScalarRange_eq (n : Int) : inScalarRange (.int n) = .ok (decide (IsScalar n)) := by
  rw [inScalarRange, Value.isAbove_int]
  by_cases hpos : 0 < n
  · show (if decide (0 < n) = true then Value.isBelow (.int n) Curve.order else _) = _
    rw [if_pos (decide_eq_true hpos), Value.isBelow_eq]
    simp [IsScalar, hpos]
  · show (if decide (0 < n) = true then Value.isBelow (.int n) Curve.order else .ok false) = _
    simp [IsScalar, hpos]

theorem isIndicator_eq (v : Int) : isIndicator (.int v) = .ok (decide (v ∈ indicators)) :=
  isAmong_int v indicators

/-- The error that shows an indicator. -/
def refuseIndicator (sig : Signature) : Result RawSignature := do
  let shown ← Result.ofFault (Value.integerText sig.v)
  failSignature (.indicator shown)

/-- The checks of a signature of integers in their order. -/
theorem backendSignature_int (sig : Signature) :
    backendSignature sig.toValue =
      if sig.v ∈ indicators then
        if IsScalar sig.r then
          if IsScalar sig.s then .ok ⟨sig.recoveryId.toNat, sig.r.toNat, sig.s.toNat⟩
          else failSignature .sOutside
        else failSignature .rOutside
      else refuseIndicator sig := by
  show (do
    if !(← Result.ofFault (isIndicator (.int sig.v))) then refuseIndicator sig
    else if !(← Result.ofFault (inScalarRange (.int sig.r))) then failSignature .rOutside
    else if !(← Result.ofFault (inScalarRange (.int sig.s))) then failSignature .sOutside
    else
      let parity ← strictInteger (← Result.ofFault (Signature.recoveryOf (.int sig.v)))
      let rInt ← strictInteger (.int sig.r)
      let sInt ← strictInteger (.int sig.s)
      return (⟨parity.toNat, rInt.toNat, sInt.toNat⟩ : RawSignature)) = _
  rw [isIndicator_eq, inScalarRange_eq, inScalarRange_eq, sig.recoveryOf_int]
  by_cases hv : sig.v ∈ indicators
  · by_cases hr : IsScalar sig.r
    · by_cases hs : IsScalar sig.s
      · simp only [hv, hr, hs, decide_true, if_true]
        rfl
      · simp only [hv, hr, hs, decide_true, decide_false, if_true, if_false]
        rfl
    · simp only [hv, hr, decide_true, decide_false, if_true, if_false]
      rfl
  · simp only [hv, decide_false, if_false]
    rfl

/-! ## Errors of the crypto family -/

/-- The error is one that verification turns into a refusal. -/
def IsCryptoFailure (f : Failure) : Prop := ∃ e, f = .client e ∧ isCryptoError e = true

theorem failsOnly_failSignature {α : Type} (cause : SignatureCause) :
    FailsOnly IsCryptoFailure (failSignature cause : Result α) :=
  .error ⟨_, rfl, rfl⟩

theorem failsOnly_checkHash (hash : Value) : FailsOnly IsCryptoFailure (checkHash hash) := by
  unfold checkHash
  split
  · split
    · exact .ok _
    · exact .error ⟨_, rfl, rfl⟩
  · exact .error ⟨_, rfl, rfl⟩

theorem failsOnly_ofPublicKey (key : Bytes) : FailsOnly IsCryptoFailure (Address.ofPublicKey key) := by
  unfold Address.ofPublicKey
  split
  · split
    · exact .ok _
    · exact .error ⟨_, rfl, rfl⟩
  · split
    · exact .ok _
    · exact .error ⟨_, rfl, rfl⟩

theorem refuseIndicator_of_shown {sig : Signature} (h : sig.HasShownIndicator) :
    refuseIndicator sig = failSignature (.indicator (Integer.decimal sig.v)) := by
  rw [refuseIndicator, Value.integerText_of_lt h]
  rfl

theorem refuseIndicator_of_not_shown {sig : Signature} (h : ¬sig.HasShownIndicator) :
    refuseIndicator sig = .error (.fault .badValue) := by
  rw [refuseIndicator, Value.integerText_of_le (Nat.le_of_not_lt h)]
  rfl

/-- A known indicator is small, so its text is not asked for in vain. -/
theorem hasShownIndicator_of_mem {sig : Signature} (h : sig.v ∈ indicators) : sig.HasShownIndicator := by
  have hsmall : sig.v.natAbs < 2 ^ 256 := by
    simp only [indicators, List.mem_cons, List.not_mem_nil, or_false] at h
    omega
  exact Integer.lt_textBound hsmall

theorem failsOnly_backendSignature {sig : Signature} (h : sig.HasShownIndicator) :
    FailsOnly IsCryptoFailure (backendSignature sig.toValue) := by
  rw [backendSignature_int, refuseIndicator_of_shown h]
  split
  · split
    · split
      · exact .ok _
      · exact failsOnly_failSignature _
    · exact failsOnly_failSignature _
  · exact failsOnly_failSignature _

variable {backend : SigningBackend} {hash : Value}

/-- Whatever the backend answers, the recovery of a key fails within the crypto family. -/
theorem failsOnly_recoverHash {sig : Signature}
    (h : ∀ digest, checkHash hash = .ok digest → sig.HasShownIndicator) :
    FailsOnly IsCryptoFailure (recoverHash backend hash sig.toValue) := by
  refine .bind (failsOnly_checkHash hash) fun digest hdigest => ?_
  refine .bind (failsOnly_backendSignature (h digest hdigest)) fun raw _ => ?_
  split
  · exact failsOnly_ofPublicKey _
  · next why _ =>
    cases why with
    | noPoint => exact .error ⟨_, rfl, rfl⟩
    | infinity => exact .error ⟨_, rfl, rfl⟩

theorem recoverHash_of_not_shown {digest : Bytes} {sig : Signature} (hdigest : checkHash hash = .ok digest)
    (h : ¬sig.HasShownIndicator) :
    recoverHash backend hash sig.toValue = .error (.fault .badValue) := by
  have hunknown : sig.v ∉ indicators := fun hmem => h (hasShownIndicator_of_mem hmem)
  rw [recoverHash, hdigest, backendSignature_int, if_neg hunknown, refuseIndicator_of_not_shown h]
  rfl

/-! ## The verdict -/

/-- Verification answers, and it holds exactly when recovery answered the address. -/
def Decides (a : Address) (recovered : Result Address) (verified : Result Verdict) : Prop :=
  ∃ verdict, verified = .ok verdict ∧ (verdict.holds = true ↔ recovered = .ok a)

theorem decides_judge (a : Address) {recovered : Result Address}
    (h : FailsOnly IsCryptoFailure recovered) : Decides a recovered (judge a recovered) := by
  cases recovered with
  | ok b =>
    refine ⟨⟨decide (b = a), none⟩, rfl, ?_⟩
    rw [Except.ok.injEq]
    exact decide_eq_true_iff
  | error f =>
    obtain ⟨e, rfl, he⟩ := h f rfl
    refine ⟨⟨false, some e⟩, if_pos he, ?_⟩
    exact iff_of_false Bool.false_ne_true error_ne_ok

theorem map_holds_judge_of_refused (a : Address) {f : Failure} (h : IsCryptoFailure f) :
    (judge a (.error f)).map Verdict.holds = .ok false := by
  obtain ⟨e, rfl, he⟩ := h
  rw [judge, if_pos he]
  rfl

/-! ## The recovery id -/

/-- Two indicators with one recovery id are equal, or both are known, or neither is. -/
theorem indicators_of_recoveryId_eq {sig : Signature} {v : Int}
    (h : { sig with v }.recoveryId = sig.recoveryId) :
    v = sig.v ∨ (v ∈ indicators ∧ sig.v ∈ indicators) ∨
      (v ∉ indicators ∧ sig.v ∉ indicators ∧ v.natAbs < 2 ^ 256 ∧ sig.v.natAbs < 2 ^ 256) := by
  have hsame : (if 27 ≤ v then v - 27 else v) = if 27 ≤ sig.v then sig.v - 27 else sig.v := h
  simp only [indicators, List.mem_cons, List.not_mem_nil, or_false]
  by_cases hv : 27 ≤ v
  · by_cases hsig : 27 ≤ sig.v
    · rw [if_pos hv, if_pos hsig] at hsame
      omega
    · rw [if_pos hv, if_neg hsig] at hsame
      omega
  · by_cases hsig : 27 ≤ sig.v
    · rw [if_neg hv, if_pos hsig] at hsame
      omega
    · rw [if_neg hv, if_neg hsig] at hsame
      omega

theorem backendSignature_of_known {sig : Signature} {v : Int}
    (h : { sig with v }.recoveryId = sig.recoveryId) (hv : v ∈ indicators) (hsig : sig.v ∈ indicators) :
    backendSignature (Signature.toValue { sig with v }) = backendSignature sig.toValue := by
  rw [backendSignature_int, backendSignature_int, if_pos hv, if_pos hsig, h]

theorem map_holds_judge_of_unknown {digest : Bytes} (hdigest : checkHash hash = .ok digest) (a : Address)
    {sig : Signature} (hunknown : sig.v ∉ indicators) (hshown : sig.HasShownIndicator) :
    (judge a (recoverHash backend hash sig.toValue)).map Verdict.holds = .ok false := by
  have hrefused : recoverHash backend hash sig.toValue =
      failSignature (.indicator (Integer.decimal sig.v)) := by
    rw [recoverHash, hdigest, backendSignature_int, if_neg hunknown, refuseIndicator_of_shown hshown]
    rfl
  rw [hrefused]
  exact map_holds_judge_of_refused a ⟨_, rfl, rfl⟩

/-- The verdict depends on the indicator only through the recovery id. -/
theorem map_holds_judge_of_recoveryId_eq (a : Address) {sig : Signature} {v : Int}
    (h : { sig with v }.recoveryId = sig.recoveryId) :
    (judge a (recoverHash backend hash (Signature.toValue { sig with v }))).map Verdict.holds =
      (judge a (recoverHash backend hash sig.toValue)).map Verdict.holds := by
  cases hcheck : checkHash hash with
  | error f =>
    have hrecover : ∀ other, recoverHash backend hash other = .error f := by
      intro other
      rw [recoverHash, hcheck]
      rfl
    rw [hrecover, hrecover]
  | ok digest =>
    rcases indicators_of_recoveryId_eq h with rfl | ⟨hv, hsig⟩ | ⟨hv, hsig, hvsmall, hsigsmall⟩
    · rfl
    · rw [recoverHash, recoverHash, backendSignature_of_known h hv hsig]
    · rw [map_holds_judge_of_unknown hcheck a hsig (Integer.lt_textBound hsigsmall)]
      have hvshown : ({ sig with v } : Signature).HasShownIndicator := Integer.lt_textBound hvsmall
      exact map_holds_judge_of_unknown hcheck a hv hvshown

/-! ## Verification -/

/-- What verification of signatures for an address answers, beside what recovery answers. -/
structure Settles (a : Address) (recovered : Signature → Result Address)
    (verified : Signature → Result Verdict) (sig : Signature) (shown : Prop) : Prop where
  /-- When the indicator can be shown there is a verdict, and it says what recovery says. -/
  decides : shown → Decides a (recovered sig) (verified sig)
  faults : ¬shown → verified sig = .error (.fault .badValue)
  ofRecoveryId : ∀ v, { sig with v }.recoveryId = sig.recoveryId →
    (verified { sig with v }).map Verdict.holds = (verified sig).map Verdict.holds

/-- A hash of another length than 32 bytes is refused before the signature is looked at. -/
theorem settles_hash (backend : SigningBackend) {expected : Value} {a : Address}
    (ha : Address.coerce "expected_address" expected = .ok a) (hash : Value) (sig : Signature) :
    Settles a (fun s => recoverHash backend hash s.toValue)
      (fun s => verifyHash backend hash s.toValue expected) sig
      (∀ digest, checkHash hash = .ok digest → sig.HasShownIndicator) := by
  have hverify : ∀ s : Signature, verifyHash backend hash s.toValue expected =
      judge a (recoverHash backend hash s.toValue) := by
    intro s
    rw [verifyHash, ha]
    rfl
  constructor
  · intro hshown
    simp only [hverify]
    exact decides_judge a (failsOnly_recoverHash hshown)
  · intro hunshown
    simp only [not_forall] at hunshown
    obtain ⟨digest, hdigest, hnot⟩ := hunshown
    simp only [hverify]
    rw [recoverHash_of_not_shown hdigest hnot]
    rfl
  · intro v hv
    simp only [hverify]
    exact map_holds_judge_of_recoveryId_eq a hv

/-- Verification of a signature whose parts are integers ends with a verdict that agrees with recovery
and depends on the indicator only through the recovery id. It ends with a fault exactly when a digest
of the right length is given and the indicator has no text. -/
theorem verify_settles (backend : SigningBackend) {expected : Value} {a : Address}
    (ha : Address.coerce "expected_address" expected = .ok a) (sig : Signature) :
    (∀ hash, Settles a (fun s => recoverHash backend hash s.toValue)
      (fun s => verifyHash backend hash s.toValue expected) sig
      (∀ digest, checkHash hash = .ok digest → sig.HasShownIndicator)) ∧
    ∀ message bytes, message.toBytes = .ok bytes →
      Settles a (fun s => recover backend message s.toValue)
        (fun s => verify backend message s.toValue expected) sig sig.HasShownIndicator := by
  refine ⟨fun hash => settles_hash backend ha hash sig, fun message bytes hmessage => ?_⟩
  have hdigest : messageHash message = .ok (Keccak.digest bytes) := by
    rw [messageHash, hmessage]
    rfl
  have hshown : (∀ digest, checkHash (.bytes (Keccak.digest bytes)) = .ok digest →
      sig.HasShownIndicator) ↔ sig.HasShownIndicator := by
    rw [checkHash_digest]
    exact ⟨fun h => h _ rfl, fun h _ _ => h⟩
  have hsettles := settles_hash backend ha (.bytes (Keccak.digest bytes)) sig
  rw [hshown] at hsettles
  have hrecover : ∀ s : Signature, recover backend message s.toValue =
      recoverHash backend (.bytes (Keccak.digest bytes)) s.toValue := by
    intro s
    rw [recover, hdigest]
    rfl
  have hverify : ∀ s : Signature, verify backend message s.toValue expected =
      verifyHash backend (.bytes (Keccak.digest bytes)) s.toValue expected := by
    intro s
    rw [verify, hdigest]
    rfl
  simp only [hrecover, hverify]
  exact hsettles

/-- The recorded signature is verified for the unit key, with the offset of its indicator and without,
and with an unknown indicator it is refused. -/
theorem verify_recorded :
    (verifyHash secp256k1 (.bytes greeting) (ofRaw recorded).toValue
      (.address (addressOf secp256k1 unitKey))).map Verdict.holds = .ok true ∧
    (verifyHash secp256k1 (.bytes greeting) (Signature.toValue { ofRaw recorded with v := 0 })
      (.address (addressOf secp256k1 unitKey))).map Verdict.holds = .ok true ∧
    ∃ verdict, verify secp256k1 (.bytes greeting) (Signature.toValue ⟨1, 1, 5⟩)
      (.address (addressOf secp256k1 unitKey)) = .ok verdict := by
  have ha : Address.coerce "expected_address" (.address (addressOf secp256k1 unitKey)) =
      .ok (addressOf secp256k1 unitKey) := rfl
  have hrange : recorded.InRange := ⟨by decide, by decide, by decide, by decide, by decide⟩
  have hrecovered : recoverHash secp256k1 (.bytes greeting) (ofRaw recorded).toValue =
      .ok (addressOf secp256k1 unitKey) := by
    have hraw : backendSignature (ofRaw recorded).toValue = .ok recorded :=
      backendSignature_toValue hrange (.inr rfl)
    have hdigest : checkHash (.bytes greeting) = .ok greeting := by
      have hlen : greeting.length = hashLength := by decide
      simp only [checkHash, Value.bytes?, hlen, if_true]
    rw [recoverHash, hdigest, hraw]
    simp only [bind, Except.bind, recover_recorded]
    exact Address.ofPublicKey_64 (Curve.Point.toBytes_length _)
  have hshown : (ofRaw recorded).HasShownIndicator := hasShownIndicator_of_mem (by decide)
  obtain ⟨hhash, -⟩ := verify_settles secp256k1 ha (ofRaw recorded)
  obtain ⟨verdict, hverdict, hholds⟩ := (hhash (.bytes greeting)).decides fun _ _ => hshown
  have hverified : (verifyHash secp256k1 (.bytes greeting) (ofRaw recorded).toValue
      (.address (addressOf secp256k1 unitKey))).map Verdict.holds = .ok true := by
    rw [hverdict]
    exact congrArg Except.ok (hholds.mpr hrecovered)
  refine ⟨hverified, ?_, ?_⟩
  · rw [← hverified]
    exact (hhash (.bytes greeting)).ofRecoveryId 0 rfl
  · have hfive : (⟨1, 1, 5⟩ : Signature).HasShownIndicator :=
      Integer.lt_textBound (by decide : (5 : Int).natAbs < 2 ^ 256)
    obtain ⟨-, hmessage⟩ := verify_settles secp256k1 ha ⟨1, 1, 5⟩
    obtain ⟨refusal, hrefusal, -⟩ := (hmessage (.bytes greeting) greeting rfl).decides hfive
    exact ⟨refusal, hrefusal⟩

/-- An indicator beyond the limit of digits has no text, so the error that refuses it cannot be made. -/
theorem verify_textless :
    verify secp256k1 (.bytes greeting) (Signature.toValue ⟨1, 1, Integer.textBound⟩)
      (.address .zero) = .error (.fault .badValue) := by
  have hunshown : ¬(⟨1, 1, Integer.textBound⟩ : Signature).HasShownIndicator := by
    show ¬(Integer.textBound : Int).natAbs < Integer.textBound
    rw [Int.natAbs_natCast]
    exact Nat.lt_irrefl _
  have hrecover : recoverHash secp256k1 (.bytes (Keccak.digest greeting))
      (Signature.toValue ⟨1, 1, Integer.textBound⟩) = .error (.fault .badValue) :=
    recoverHash_of_not_shown (checkHash_digest greeting) hunshown
  show judge .zero (recoverHash secp256k1 (.bytes (Keccak.digest greeting))
    (Signature.toValue ⟨1, 1, Integer.textBound⟩)) = _
  rw [hrecover]
  rfl

end Signer

end LedgerClient
