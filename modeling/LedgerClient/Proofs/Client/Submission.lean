import LedgerClient.Client.Submission
import LedgerClient.Proofs.Client.Exchange
import LedgerClient.Proofs.Payload.Wire
import LedgerClient.Proofs.Signer.Payload

/-!
# Signed before it is sent, and sent once

A submission checks the action, compares the chain, encodes the payload and reads the key, in this
order. A check that fails ends it before any hook is told and anything is sent. A payload that passes
is posted once at most, to the endpoint for the action that it names, with the signature of its own
bytes.
-/

namespace LedgerClient

open LedgerClient.Action Payload

namespace SubmissionMethod

/-! ## Endpoints -/

/-- The method that is meant for one action only. -/
def ofAction : AuthorityAction → SubmissionMethod
  | .grant => .grantAuthority
  | .revoke => .revokeAuthority

theorem actionPath_injective {a b : AuthorityAction} (h : actionPath a = actionPath b) : a = b := by
  revert h
  cases a <;> cases b <;> decide

theorem authorityAction?_eq_some_iff {v : Value} {a : AuthorityAction} :
    authorityAction? v = some a ↔ v = .choice (.authorityAction a) := by
  constructor
  · intro h
    unfold authorityAction? at h
    split at h
    · cases h
      rfl
    · cases h
  · rintro rfl
    rfl

theorem actionOf_toValue {p : Payload} {v : Value} :
    actionOf p.toValue = .ok v ↔ p.field? "action" = some v := by
  obtain ⟨variant, values⟩ := p
  rw [Payload.toValue, actionOf]
  cases Payload.field? ⟨variant, values⟩ "action" with
  | none => exact iff_of_false error_ne_ok (Option.some_ne_none v).symm
  | some w =>
    constructor
    · intro h
      cases h
      rfl
    · intro h
      cases h
      rfl

theorem pathByAction_eq_ok_iff {v : Value} {a : AuthorityAction} :
    pathByAction v = .ok (actionPath a) ↔ v = .choice (.authorityAction a) := by
  constructor
  · intro h
    unfold pathByAction at h
    split at h
    · cases h
    · split at h
      · next b hb =>
        obtain rfl : b = a := actionPath_injective (Except.ok.inj h)
        exact authorityAction?_eq_some_iff.mp hb
      · exact absurd h (failShowing_ne_ok _ _ _)
  · rintro rfl
    rfl

theorem pathForAction_eq_ok_iff {operation : String} {wanted a : AuthorityAction} {v : Value} :
    pathForAction operation wanted v = .ok (actionPath a) ↔
      wanted = a ∧ v = .choice (.authorityAction a) := by
  unfold pathForAction
  constructor
  · intro h
    split at h
    · next hwanted =>
      obtain rfl : wanted = a := actionPath_injective (Except.ok.inj h)
      exact ⟨rfl, authorityAction?_eq_some_iff.mp hwanted⟩
    · exact absurd h (failDisplaying_ne_ok _ _ _)
  · rintro ⟨rfl, rfl⟩
    rw [if_pos (authorityAction?_eq_some_iff.mpr rfl)]

theorem bind_actionOf_eq_ok_iff {p : Payload} {route : Value → Result String} {path : String} :
    (do route (← Result.ofFault (actionOf p.toValue))) = .ok path ↔
      ∃ v, p.field? "action" = some v ∧ route v = .ok path := by
  cases haction : actionOf p.toValue with
  | error f =>
    refine iff_of_false error_ne_ok ?_
    rintro ⟨v, hv, -⟩
    rw [actionOf_toValue.mpr hv] at haction
    cases haction
  | ok v =>
    have hv := actionOf_toValue.mp haction
    constructor
    · intro h
      exact ⟨v, hv, h⟩
    · rintro ⟨w, hw, hroute⟩
      obtain rfl : v = w := Option.some.inj (hv.symm.trans hw)
      exact hroute

/-- The endpoints of granting and revoking are reached by the methods for it alone, and only with a
payload that names that very action. -/
theorem path_eq_actionPath_iff (m : SubmissionMethod) (p : Payload) (a : AuthorityAction) :
    m.path p.toValue = .ok (actionPath a) ↔
      (m = .updateAuthority ∨ m = ofAction a) ∧
        p.field? "action" = some (.choice (.authorityAction a)) := by
  have hother : ∀ path : String, path ≠ grantPath → path ≠ revokePath →
      (Except.ok path : Result String) ≠ .ok (actionPath a) := by
    intro path hgrant hrevoke h
    cases a with
    | grant => exact hgrant (Except.ok.inj h)
    | revoke => exact hrevoke (Except.ok.inj h)
  have hmember : ∀ m : SubmissionMethod, m ≠ .updateAuthority → m ≠ .grantAuthority →
      m ≠ .revokeAuthority → ¬(m = .updateAuthority ∨ m = ofAction a) := by
    intro m hupdate hgrant hrevoke h
    rcases h with h | h
    · exact hupdate h
    · cases a with
      | grant => exact hgrant h
      | revoke => exact hrevoke h
  cases m with
  | updateAuthority =>
    refine bind_actionOf_eq_ok_iff.trans ?_
    simp only [pathByAction_eq_ok_iff, exists_eq_right, true_or, true_and]
  | grantAuthority =>
    refine bind_actionOf_eq_ok_iff.trans ?_
    simp only [pathForAction_eq_ok_iff]
    cases a <;> simp [ofAction]
  | revokeAuthority =>
    refine bind_actionOf_eq_ok_iff.trans ?_
    simp only [pathForAction_eq_ok_iff]
    cases a <;> simp [ofAction]
  | _ =>
    -- The other methods have one endpoint each, and it is neither of the two.
    exact iff_of_false (fun h => hother _ (by decide) (by decide) h)
      (fun h => hmember _ (by decide) (by decide) (by decide) h.1)

end SubmissionMethod

namespace Payload

/-! ## The action in the signed bytes -/

theorem exists_getElem?_of_lookup_zip {names : List String} {values : List Value} {name : String}
    {v : Value} (h : (names.zip values).lookup name = some v) :
    ∃ i : Nat, names[i]? = some name ∧ values[i]? = some v := by
  induction names generalizing values with
  | nil => cases h
  | cons other names ih =>
    cases values with
    | nil => cases h
    | cons u rest =>
      rw [List.zip_cons_cons, List.lookup_cons] at h
      split at h
      · next hsame =>
        cases h
        exact ⟨0, congrArg some (beq_iff_eq.mp hsame).symm, rfl⟩
      · obtain ⟨i, hname, hv⟩ := ih h
        exact ⟨i + 1, hname, hv⟩

/-- The bytes are those of the payload, and the name of the choice stands at the action. -/
def SignsAction (p : Payload) (bs : Bytes) (c : Choice) : Prop :=
  ∃ (cs : List Content) (i : Nat) (f : Field), p.contents? = some cs ∧
    bs = Rlp.encodeAll (frame p.variant (cs.flatMap Content.items)) ∧
    p.variant.layout[i]? = some f ∧ f.name = "action" ∧ cs[i]? = some (.name c.label)

theorem kind_of_action {variant : Variant} {f : Field} (hf : f ∈ variant.layout)
    (hname : f.name = "action") : ∃ family, f.kind = .choice family := by
  have hshapes : ∀ f ∈ variant.layout, f.name = "action" → f.kind.shape = .name := by
    cases variant <;> decide
  have hshape := hshapes f hf hname
  cases hkind : f.kind with
  | choice family => exact ⟨family, rfl⟩
  | _ =>
    rw [hkind] at hshape
    cases hshape

theorem signsAction_of_encode {p : Payload} {bs : Bytes} (hp : p.IsComplete) (h : p.encode = .ok bs)
    {c : Choice} (hc : p.field? "action" = some (.choice c)) : p.SignsAction bs c := by
  obtain ⟨cs, hcs, -, hbytes⟩ := contents?_of_encode hp h
  obtain ⟨i, hname, hv⟩ := exists_getElem?_of_lookup_zip hc
  obtain ⟨f, hf, hfname⟩ : ∃ f, p.variant.layout[i]? = some f ∧ f.name = "action" := by
    rw [List.getElem?_map] at hname
    exact Option.map_eq_some_iff.mp hname
  obtain ⟨family, hkind⟩ := kind_of_action (List.mem_of_getElem? hf) hfname
  obtain ⟨w, label, hw, hlabel, hcontent⟩ := exists_name_of_contents? hcs hf hkind
  obtain rfl : w = .choice c := Option.some.inj (hw.symm.trans hv)
  obtain rfl : c.label = label := Option.some.inj hlabel
  exact ⟨cs, i, f, hcs, hbytes, hf, hfname, hcontent⟩

end Payload

namespace Client

/-! ## Before anything is sent -/

/-- The note about a payload for another chain; there is none when the chain is the client's. -/
def chainNotes (c : Client) (p : Payload) : Except Fault (List Note) := do
  let chainId ← payloadField p.toValue "chain_id"
  if ← chainId.equalsInt c.chainId then return []
  else
    let shown ← chainId.display
    return [.entry (.plain submissionLogger 30 ("Payload chain_id " ++ shown ++ " differs from " ++
      c.config.network.name ++ " chain_id " ++ toString c.chainId))]

/-- The checks of a submission in their order: the action, the chain, the bytes and the key. What
passes has an endpoint, and a signature of its bytes. -/
def clearance (c : Client) (m : SubmissionMethod) (p : Payload) (key : Value) :
    Result (String × Signature) := do
  let path ← m.path p.toValue
  let _ ← Result.ofFault (c.chainNotes p)
  let bs ← p.encode
  let raw ← Signer.loadKey key
  return (path, Signer.ofRaw (c.backend.sign (Keccak.digest bs) raw))

/-- The part of a submission that runs when it is called; what is awaited comes behind it. -/
def prepare {ρ : Type} (c : Client) (m : SubmissionMethod) (payload key : Value) :
    Action ρ (String × Value) := do
  let path ← ofResult (m.path payload)
  let body ← c.signRequest payload key
  return (path, body)

theorem submit_eq_prepare (c : Client) (m : SubmissionMethod) (payload key : Value) :
    c.submit m payload key =
      c.prepare m payload key >>= fun ready => c.submitSigned (.text ready.1) payload ready.2 := by
  unfold submit prepare
  simp only [bind_assoc, pure_bind]

variable {ρ : Type}

/-- The step leaves the notes that were computed, or ends with the fault of computing them. -/
def LeavesComputed (a : Action ρ Unit) (computed : Except Fault (List Note)) : Prop :=
  match computed with
  | .ok notes => Leaves a (.ok ()) notes
  | .error f => Leaves a (.error (.fault f)) []

theorem LeavesComputed.bind_ofFault {α : Type} {x : Except Fault α} {g : α → Action ρ Unit}
    {k : α → Except Fault (List Note)} (h : ∀ b, LeavesComputed (g b) (k b)) :
    LeavesComputed (ofFault x >>= g) (x >>= k) := by
  cases x with
  | ok b => exact h b
  | error f => exact (leaves_throw (.fault f)).bind_error g

theorem leavesComputed_noteChain (c : Client) (p : Payload) :
    LeavesComputed (ofFault (payloadField p.toValue "chain_id") >>= c.noteChain : Action ρ Unit)
      (c.chainNotes p) := by
  refine .bind_ofFault fun chainId => .bind_ofFault fun same => ?_
  cases same with
  | true => exact leaves_pure ()
  | false => exact .bind_ofFault fun shown => leaves_note _

theorem signRequest_eq (c : Client) (p : Payload) (key : Value) :
    (c.signRequest p.toValue key : Action ρ Value) =
      (ofFault (payloadField p.toValue "chain_id") >>= c.noteChain) >>= fun _ =>
        ofResult ((Signer.signPayload c.backend p key).map p.toRequest) := by
  have hbody : (do
      let q ← ofResult (Payload.ofValue p.toValue)
      let signature ← ofResult (Signer.signPayload c.backend q key)
      return q.toRequest signature : Action ρ Value) =
      ofResult ((Signer.signPayload c.backend p key).map p.toRequest) := by
    rw [Payload.ofValue_toValue]
    show (ofResult (Signer.signPayload c.backend p key) >>= fun signature => _) = _
    cases Signer.signPayload c.backend p key <;> rfl
  rw [bind_assoc, ← hbody]
  rfl

/-- Behind the action and the chain, being ready is being signed. -/
theorem clearance_ready {c : Client} {m : SubmissionMethod} {p : Payload} (key : Value) {path : String}
    {notes : List Note} (hpath : m.path p.toValue = .ok path) (hnotes : c.chainNotes p = .ok notes) :
    (c.clearance m p key).map (fun cleared => (cleared.1, p.toRequest cleared.2)) =
      (Signer.signPayload c.backend p key).map p.toRequest >>= fun body => .ok (path, body) := by
  unfold clearance
  rw [hpath, hnotes, Signer.signPayload_eq]
  show Except.map _ (p.encode >>= fun bs => _) = _
  cases p.encode with
  | error f => rfl
  | ok bs => cases Signer.loadKey key <;> rfl

/-- A submission leaves at most the note about the chain before it sends anything, and it is ready
exactly when it passes the checks. -/
theorem leaves_prepare (c : Client) (m : SubmissionMethod) (p : Payload) (key : Value) :
    ∃ notes, (notes = [] ∨ c.chainNotes p = .ok notes) ∧
      Leaves (c.prepare m p.toValue key : Action ρ (String × Value))
        ((c.clearance m p key).map fun cleared => (cleared.1, p.toRequest cleared.2)) notes := by
  unfold prepare
  cases hpath : m.path p.toValue with
  | error f =>
    unfold clearance
    rw [hpath]
    exact ⟨[], .inl rfl, (leaves_throw f).bind_error _⟩
  | ok path =>
    have hchain := leavesComputed_noteChain (ρ := ρ) c p
    show ∃ notes, _ ∧ Leaves (c.signRequest p.toValue key >>= fun body => pure (path, body)) _ notes
    rw [signRequest_eq]
    cases hnotes : c.chainNotes p with
    | error f =>
      rw [hnotes] at hchain
      unfold clearance
      rw [hpath, hnotes]
      exact ⟨[], .inl rfl, (hchain.bind_error _).bind_error _⟩
    | ok notes =>
      rw [hnotes] at hchain
      have hsigned := Leaves.bind_ofResult
        (fun _ => (Signer.signPayload c.backend p key).map p.toRequest) hchain
      rw [clearance_ready key hpath hnotes]
      exact ⟨notes, .inr rfl, hsigned.bind_ofResult fun body => .ok (path, body)⟩

/-! ## What is sent -/

theorem clearance_eq_ok_iff {c : Client} {m : SubmissionMethod} {p : Payload} {key : Value}
    {path : String} {sig : Signature} :
    c.clearance m p key = .ok (path, sig) ↔
      m.path p.toValue = .ok path ∧ (∃ notes, c.chainNotes p = .ok notes) ∧
        ∃ bs raw, p.encode = .ok bs ∧ Signer.loadKey key = .ok raw ∧
          Signer.ofRaw (c.backend.sign (Keccak.digest bs) raw) = sig := by
  simp only [clearance, bind_eq_ok, pure_eq_ok, Prod.mk.injEq, ofFault_eq_ok]
  constructor
  · rintro ⟨_, hpath, notes, hnotes, bs, hbs, raw, hraw, rfl, rfl⟩
    exact ⟨hpath, ⟨notes, hnotes⟩, bs, raw, hbs, hraw, rfl⟩
  · rintro ⟨hpath, ⟨notes, hnotes⟩, bs, raw, hbs, hraw, rfl⟩
    exact ⟨path, hpath, notes, hnotes, bs, hbs, raw, hraw, rfl, rfl⟩

/-- A backend's parity is one bit, so the indicator is small. -/
theorem natAbs_indicator_lt {made : RawSignature} (h : made.parity ≤ 1) :
    (Signer.ofRaw made).v.natAbs < Integer.textBound := by
  refine Integer.lt_textBound (Nat.lt_of_le_of_lt ?_ (by decide : 28 < 2 ^ 256))
  show ((made.parity : Int) + Signature.recoveryOffset).natAbs ≤ 28
  rw [Signature.recoveryOffset]
  omega

/-- Every payload has a nonce, and one that was encoded has a text. -/
theorem exists_nonceText_of_encode {p : Payload} {bs : Bytes} (hp : p.IsComplete)
    (h : p.encode = .ok bs) :
    ∃ nonce shown, payloadField p.toValue "nonce" = .ok nonce ∧ nonce.display = .ok shown := by
  have hnonce : (⟨"nonce", .word, false⟩ : Field) ∈ p.variant.layout := by
    cases p.variant <;> decide
  obtain ⟨i, hi⟩ := List.mem_iff_getElem?.mp hnonce
  obtain ⟨nonce, shown, hfield, hshown⟩ := exists_display_of_encode hp h hi rfl
  have hnamed : Payload.field? ⟨p.variant, p.values⟩ "nonce" = some nonce := hfield
  refine ⟨nonce, shown, ?_, hshown⟩
  rw [Payload.toValue, payloadField, hnamed]

theorem leaves_submitSigned_of_refused {c : Client} {path text : String} (payload : Value)
    {body : Value} (hbody : bodyText body = .ok (some text)) {f : Failure}
    (h : c.permission "POST" (c.config.urlFor path) (some text) = .error f) :
    ∃ notes, Leaves (c.submitSigned (.text path) payload body) (.error f) notes := by
  have hurl : c.config.requestUrl (.text path) .null = .ok (c.config.urlFor path) :=
    Url.withParameters_null _
  have hrefused := leaves_exchange_of_refused h
  rw [← request_eq_exchange hurl hbody] at hrefused
  exact ⟨_, hrefused.bind_error _⟩

/-- Logging a submission succeeds, because its nonce has a text. -/
theorem course_submitSigned {c : Client} {p : Payload} {bs : Bytes} (hp : p.IsComplete)
    (hencode : p.encode = .ok bs) {path text : String} {body : Value}
    (hbody : bodyText body = .ok (some text))
    (hpermission : c.permission "POST" (c.config.urlFor path) (some text) = .ok ())
    (w : World Reply) :
    Course (c.submitSigned (.text path) p.toValue body) w
      ((c.received "POST" (c.config.urlFor path) (nextReply w.answers) >>= submittedHash).map
        fun hash => .submitted hash p.toValue)
      [.request (c.outgoing "POST" (c.config.urlFor path) (some text))] w.answers.tail := by
  have hurl : c.config.requestUrl (.text path) .null = .ok (c.config.urlFor path) :=
    Url.withParameters_null _
  have hrequest := course_exchange hpermission w
  rw [← request_eq_exchange hurl hbody] at hrequest
  obtain ⟨nonce, shown, hpayload, hshown⟩ := exists_nonceText_of_encode hp hencode
  unfold submitSigned
  cases hreceived : c.received "POST" (c.config.urlFor path) (nextReply w.answers) with
  | error f =>
    rw [hreceived] at hrequest
    exact hrequest.bind_error _
  | ok data =>
    rw [hreceived] at hrequest
    refine hrequest.bind_quiet fun after => ?_
    show Course _ after ((submittedHash data).map _) [] after.answers
    cases hhash : submittedHash data with
    | error f => exact (course_throw f after).bind_error _
    | ok hash =>
      refine (course_pure hash after).bind_quiet fun told => ?_
      rw [hpayload]
      refine (course_pure nonce told).bind_quiet fun told => ?_
      rw [hshown]
      refine (course_pure shown told).bind_quiet fun told => ?_
      exact ((leaves_note _).course told).bind_quiet fun told => course_pure _ told

/-- A signature of a backend with one bit of parity can be posted with its payload. -/
theorem exists_bodyText_of_clearance {c : Client}
    (hparity : ∀ {digest key : Bytes}, digest.length = Signer.hashLength → Signer.IsKey key →
      (c.backend.sign digest key).parity ≤ 1)
    {p : Payload} (hp : p.IsComplete) (hcoerced : EachField FieldKind.Coerced p)
    {m : SubmissionMethod} {key : Value} {path : String} {sig : Signature}
    (h : c.clearance m p key = .ok (path, sig)) :
    ∃ text, bodyText (p.toRequest sig) = .ok (some text) := by
  obtain ⟨-, -, bs, raw, hencode, hkey, rfl⟩ := clearance_eq_ok_iff.mp h
  have hdigest := Signer.length_of_checkHash (Signer.checkHash_digest bs)
  have hisKey := (Signer.loadKey_eq_ok_iff.mp hkey).2
  exact exists_bodyText_of_encode hp hcoerced hencode (natAbs_indicator_lt (hparity hdigest hisKey))

/-- A payload that fails a check, in the order of the action, the chain, the bytes and the key, ends
the call with the error of that check: no hook is told and nothing is sent. A payload that passes is
signed, and is posted once unless a hook keeps it back. It goes to the endpoint of the method, and to
that of an action only if the signed bytes name the action; what comes back is the hash with the
same payload, or one error. -/
theorem submit_once {c : Client}
    (hparity : ∀ {digest key : Bytes}, digest.length = Signer.hashLength → Signer.IsKey key →
      (c.backend.sign digest key).parity ≤ 1)
    {variant : Variant} {given : List (String × Value)} {p : Payload}
    (hbuild : build variant given = .ok p) (m : SubmissionMethod) (key : Value) :
    (∃ notes, (notes = [] ∨ c.chainNotes p = .ok notes) ∧
      Leaves (c.prepare m p.toValue key : Action Reply (String × Value))
        ((c.clearance m p key).map fun cleared => (cleared.1, p.toRequest cleared.2)) notes) ∧
    (∀ f, c.clearance m p key = .error f →
      ∃ notes, (notes = [] ∨ c.chainNotes p = .ok notes) ∧
        Leaves (c.submit m p.toValue key) (.error f) notes) ∧
    ∀ path sig, c.clearance m p key = .ok (path, sig) →
      m.path p.toValue = .ok path ∧ Signer.signPayload c.backend p key = .ok sig ∧
      (∀ a, path = SubmissionMethod.actionPath a →
        (m = .updateAuthority ∨ m = .ofAction a) ∧
          ∃ bs, p.encode = .ok bs ∧ p.SignsAction bs (.authorityAction a)) ∧
      ∃ text, bodyText (p.toRequest sig) = .ok (some text) ∧
        (∀ f, c.permission "POST" (c.config.urlFor path) (some text) = .error f →
          ∃ notes, Leaves (c.submit m p.toValue key) (.error f) notes) ∧
        (c.permission "POST" (c.config.urlFor path) (some text) = .ok () → ∀ w : World Reply,
          Course (c.submit m p.toValue key) w
            ((c.received "POST" (c.config.urlFor path) (nextReply w.answers) >>= submittedHash).map
              fun hash => .submitted hash p.toValue)
            [.request (c.outgoing "POST" (c.config.urlFor path) (some text))] w.answers.tail) := by
  have hp : p.IsComplete := isComplete_of_build hbuild
  obtain ⟨notes, hnotes, hprepare⟩ := leaves_prepare (ρ := Reply) c m p key
  refine ⟨⟨notes, hnotes, hprepare⟩, ?_, ?_⟩
  · intro f hf
    rw [hf] at hprepare
    rw [submit_eq_prepare]
    exact ⟨notes, hnotes, hprepare.bind_error _⟩
  · intro path sig hclear
    rw [hclear] at hprepare
    obtain ⟨hpath, -, bs, raw, hencode, hkey, hsig⟩ := clearance_eq_ok_iff.mp hclear
    have hsigned := Signer.signPayload_eq_ok_iff.mpr ⟨bs, raw, hencode, hkey, hsig⟩
    refine ⟨hpath, hsigned, ?_, ?_⟩
    · rintro a rfl
      obtain ⟨hmethod, hnamed⟩ := (SubmissionMethod.path_eq_actionPath_iff m p a).mp hpath
      exact ⟨hmethod, bs, hencode, signsAction_of_encode hp hencode hnamed⟩
    · obtain ⟨text, htext⟩ := exists_bodyText_of_clearance hparity hp
        (coerced_of_build hbuild) hclear
      refine ⟨text, htext, ?_, ?_⟩
      · intro f hf
        obtain ⟨more, hrefused⟩ := leaves_submitSigned_of_refused p.toValue htext hf
        rw [submit_eq_prepare]
        exact ⟨_, hprepare.bind hrefused⟩
      · intro hallowed w
        rw [submit_eq_prepare]
        refine Course.after_leaves hprepare fun after hafter _ => ?_
        rw [← hafter]
        exact course_submitSigned hp hencode htext hallowed after

/-! ## Two submissions -/

theorem parity_sign_le (digest key : Bytes) : (Recoverable.sign digest key).parity ≤ 1 := by
  -- The curve is kept closed, or the kernel would multiply points.
  simp only [Recoverable.sign]
  generalize (Curve.Point.times (Recoverable.nonce digest key) Curve.Point.generator).affine = point
  generalize Curve.invert (Recoverable.nonce digest key) Curve.order = inverse
  split
  · exact Nat.le_of_lt_succ (Nat.mod_lt _ Nat.two_pos)
  · exact Nat.sub_le 1 _

/-- The grant of minting the zero token. -/
def granting : Payload :=
  ⟨.tokenAuthority, [.int 1, .int 2, .int 1212101, .int 0, .choice (.authorityAction .grant),
    .choice (.authority .mintBurnTokens), .address .zero,
    .address .zero, .amount ⟨7, by decide⟩]⟩

/-- What a caller gives for it. -/
def grantArguments : List (String × Value) :=
  [("recent_epoch", .int 1), ("recent_checkpoint", .int 2), ("chain_id", .int 1212101),
    ("nonce", .int 0), ("action", .choice (.authorityAction .grant)),
    ("authority_type", .choice (.authority .mintBurnTokens)),
    ("authority_address", .bytes (Bytes.zeros 20)), ("token", .bytes (Bytes.zeros 20)),
    ("value", .int 7)]

theorem build_granting : build .tokenAuthority grantArguments = .ok granting := by
  rfl

/-- The hash of the grant. -/
def accepted : Value := Value.record [("hash", .text "0x01")]

theorem plain_accepted : Json.Plain 1 accepted := by
  refine .record (by decide : ["hash"].Nodup) fun e he => ?_
  rw [List.mem_singleton.mp he]
  exact .text "0x01"

/-- Two hooks write down what they see. -/
def attended : Client :=
  { loopback (.int 30) with hooks := [.recording 0 none, .recording 1 none] }

theorem permission_attended (method url : String) (body : Option String) :
    attended.permission method url body = .ok () :=
  permission_eq_ok_iff.mpr (List.forall_mem_cons.mpr ⟨rfl, List.forall_mem_singleton.mpr rfl⟩)

theorem received_attended (method url : String) (reply : Reply) :
    attended.received method url reply = attended.reading url reply := by
  cases reply <;> rfl

/-- The grant goes to its endpoint, signed, with the hooks told of it, and the answer is its hash. -/
theorem submit_granting : ∃ sig text bs,
    Signer.signPayload secp256k1 granting (.bytes Signer.unitKey) = .ok sig ∧
    granting.encode = .ok bs ∧ granting.SignsAction bs (.authorityAction .grant) ∧
    bodyText (granting.toRequest sig) = .ok (some text) ∧
    Course (attended.submit .updateAuthority granting.toValue (.bytes Signer.unitKey))
      (.start [telling accepted] none) (.ok (.submitted "0x01" granting.toValue))
      [.request (attended.outgoing "POST"
        "http://127.0.0.1:18555/v1/tokens/grant_authority" (some text))] [] := by
  obtain ⟨-, -, hcleared⟩ := submit_once (c := attended)
    (fun {digest key} _ _ => parity_sign_le digest key) build_granting .updateAuthority
    (.bytes Signer.unitKey)
  have hchain : attended.chainNotes granting = .ok [] := rfl
  have hok : granting.encode.isOk = true := by decide +kernel
  obtain ⟨bs, hencode⟩ := exists_of_isOk hok
  obtain ⟨-, hsigned, haction, text, htext, -, hcourse⟩ := hcleared SubmissionMethod.grantPath _
    (clearance_eq_ok_iff.mpr ⟨rfl, ⟨[], hchain⟩, bs, _, hencode, Signer.loadKey_unitKey, rfl⟩)
  obtain ⟨-, bs', hbs', hnamed⟩ := haction .grant rfl
  obtain rfl : bs' = bs := Except.ok.inj (hbs'.symm.trans hencode)
  have hhash : (attended.received "POST" (attended.config.urlFor SubmissionMethod.grantPath)
      (telling accepted) >>= submittedHash) = .ok "0x01" := by
    rw [received_attended, reading_telling _ _ plain_accepted (by decide)]
    rfl
  have hposted := hcourse (permission_attended _ _ _) (.start [telling accepted] none)
  rw [show nextReply (World.start [telling accepted] none).answers = telling accepted from rfl,
    hhash] at hposted
  exact ⟨_, text, bs', hsigned, hencode, hnamed, htext, hposted⟩

/-- A payload whose chain is a signaling `NaN`. -/
def signaling : Payload :=
  ⟨.tokenPause, [.int 1, .int 2, .decimal (.nan false true 0), .int 0,
    .choice (.pauseAction .pause), .address .zero]⟩

/-- The comparison of the chain comes before the encoding: where it fails, the call ends with its
fault, and not with the error that the encoder has for the same payload. -/
theorem submit_signaling :
    build .tokenPause [("recent_epoch", .int 1), ("recent_checkpoint", .int 2),
      ("chain_id", .decimal (.nan false true 0)), ("nonce", .int 0),
      ("action", .choice (.pauseAction .pause)), ("token", .bytes (Bytes.zeros 20))] =
        .ok signaling ∧
    SubmissionMethod.path .pause signaling.toValue = .ok "/tokens/pause" ∧
    signaling.encode = .error (.client (.invalidField "chain_id" (.expected "integer" "Decimal"))) ∧
    Action.perform ((loopback (.int 30)).submit .pause signaling.toValue (.bytes Signer.unitKey))
        (.start [] none) =
      (.error (.fault (.plain .decimalInvalid)), .start [] none) := by
  have hchain : (loopback (.int 30)).chainNotes signaling = .error (.plain .decimalInvalid) := rfl
  refine ⟨rfl, rfl, rfl, ?_⟩
  obtain ⟨notes, hnotes, hprepare⟩ := leaves_prepare (ρ := Reply) (loopback (.int 30)) .pause signaling
    (.bytes Signer.unitKey)
  have hclear : (loopback (.int 30)).clearance .pause signaling (.bytes Signer.unitKey) =
      .error (.fault (.plain .decimalInvalid)) := by
    unfold clearance
    rw [hchain]
    rfl
  rw [hclear] at hprepare
  rw [hchain] at hnotes
  obtain rfl : notes = [] := hnotes.resolve_right error_ne_ok
  rw [submit_eq_prepare, hprepare.bind_error _]
  rfl

end Client

end LedgerClient
