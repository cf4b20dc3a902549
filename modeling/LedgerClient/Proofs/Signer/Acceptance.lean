import LedgerClient.Proofs.Signer.Agreement

/-!
# Which keys are accepted

A key is accepted when its number lies strictly between zero and the order of the curve, and all forms of
one number are the same key. Every other value is refused by one of five checks, with an error that the
check, the type of the value and its size determine: two values which these three do not tell apart are
refused alike.
-/

namespace LedgerClient.Signer

open Bytes

/-! ## Accepted keys -/

/-- The key is a form of this number: 32 bytes, or 64 hexadecimal digits without blanks and marker. -/
inductive Denotes (n : Nat) : Value → Prop where
  | bytes {raw : Bytes} (hlen : raw.length = keyLength) (hn : raw.toNat = n) : Denotes n (.bytes raw)
  | buffer {raw : Bytes} (hlen : raw.length = keyLength) (hn : raw.toNat = n) : Denotes n (.buffer raw)
  | text {s : String} {digits : List Nat} (hlen : (keyChars s).length = 2 * keyLength)
      (hdigits : (keyChars s).mapM hexValue? = some digits) (hn : Integer.ofDigits 16 digits = n) :
      Denotes n (.text s)

/-- The key is a form of a number strictly between zero and the order. -/
def Accepted (n : Nat) (key : Value) : Prop := Denotes n key ∧ 0 < n ∧ n < Curve.order

theorem denotes_of_keyForm {key : Value} {raw : Bytes} (hform : KeyForm raw key)
    (hlen : raw.length = keyLength) : Denotes raw.toNat key := by
  cases hform with
  | bytes => exact .bytes hlen rfl
  | buffer => exact .buffer hlen rfl
  | text hbefore hmarker hdigits hafter =>
    have hread := keyForm_text_iff.mp (.text hbefore hmarker hdigits hafter)
    obtain ⟨digits, hmapM, hfold⟩ := exists_digits_of_ofHexChars hread
    exact .text (by rw [length_of_ofHexChars hread, hlen]) hmapM (hfold 0)

theorem exists_keyForm {n : Nat} {key : Value} (h : Denotes n key) :
    ∃ raw, KeyForm raw key ∧ raw.length = keyLength ∧ raw.toNat = n := by
  cases h with
  | bytes hlen hn => exact ⟨_, .bytes, hlen, hn⟩
  | buffer hlen hn => exact ⟨_, .buffer, hlen, hn⟩
  | text hlen hdigits hn =>
    obtain ⟨raw, hraw, hcount, hvalue⟩ := exists_ofHexChars_of_mapM hlen hdigits
    exact ⟨raw, keyForm_text_iff.mpr hraw, hcount, hvalue.trans hn⟩

/-- The number of an accepted key is all that is loaded. -/
theorem loadKey_of_accepted {n : Nat} {key : Value} (h : Accepted n key) :
    loadKey key = .ok (Bytes.ofNat keyLength n) ∧ IsKey (Bytes.ofNat keyLength n) := by
  obtain ⟨hdenotes, hpos, hlt⟩ := h
  obtain ⟨raw, hform, hlen, rfl⟩ := exists_keyForm hdenotes
  have hraw : Bytes.ofNat keyLength raw.toNat = raw := by
    rw [← hlen, Bytes.ofNat_toNat]
  have hkey : IsKey raw := ⟨hlen, hpos, hlt⟩
  rw [hraw]
  exact ⟨loadKey_eq_ok_iff.mpr ⟨hform, hkey⟩, hkey⟩

theorem accepted_of_loadKey {key : Value} {raw : Bytes} (h : loadKey key = .ok raw) :
    Accepted raw.toNat key := by
  obtain ⟨hform, hlen, hrange⟩ := loadKey_eq_ok_iff.mp h
  exact ⟨denotes_of_keyForm hform hlen, hrange⟩

/-! ## Refused keys -/

/-- The length of a key: its characters without blanks and marker, or its bytes. -/
def keySize : Value → Nat
  | .text s => (keyChars s).length
  | .torn t => (keyChars t.mended).length
  | .bytes raw | .buffer raw => raw.length
  | _ => 0

/-- The checks that a key passes, in their order. -/
inductive KeyCheck where
  | type
  | size
  | digits
  | range
  | backend
  deriving DecidableEq, Repr

/-- The cause that a check names; it sees nothing of the key but its type and its size. -/
def KeyCheck.cause (typeName : String) (size : Nat) : KeyCheck → KeyCause
  | .type => .wrongType typeName
  | .size => if typeName = "str" then .hexCount size else .byteCount size
  | .digits => .notHex
  | .range => .outsideRange
  | .backend => .rejected

/-- The first check that the key does not pass. -/
inductive Refused : KeyCheck → Value → Prop where
  | type {key : Value} (htext : key.text? = none) (hbytes : ∀ raw, key ≠ .bytes raw)
      (hbuffer : ∀ raw, key ≠ .buffer raw) : Refused .type key
  | text {s : Script} (h : (keyChars s.mended).length ≠ 2 * keyLength) : Refused .size s.toValue
  | bytes {raw : Bytes} (h : raw.length ≠ keyLength) : Refused .size (.bytes raw)
  | buffer {raw : Bytes} (h : raw.length ≠ keyLength) : Refused .size (.buffer raw)
  | digits {s : String} (hlen : (keyChars s).length = 2 * keyLength)
      (h : keyDigits (keyChars s) = none) : Refused .digits (.text s)
  | torn {t : Torn} (hlen : (keyChars t.mended).length = 2 * keyLength) : Refused .digits (.torn t)
  | range {key : Value} {raw : Bytes} (hraw : rawKey key = .ok raw)
      (h : ¬(0 < raw.toNat ∧ raw.toNat < Curve.order)) : Refused .range key
  | backend {key : Value} {raw : Bytes} (hraw : rawKey key = .ok raw)
      (hrange : 0 < raw.toNat ∧ raw.toNat < Curve.order) (h : raw.length ≠ keyLength) :
      Refused .backend key

theorem loadKey_of_rawKey {key : Value} {cause : KeyCause} (h : rawKey key = failKey cause) :
    loadKey key = failKey cause := by
  rw [loadKey, h]
  rfl

theorem keyOfBytes_of_size {raw : Bytes} (h : raw.length ≠ keyLength) :
    keyOfBytes raw = failKey (.byteCount raw.length) := if_pos h

theorem loadKey_of_refused {check : KeyCheck} {key : Value} (h : Refused check key) :
    loadKey key = failKey (check.cause key.typeName (keySize key)) := by
  cases h with
  | type htext hbytes hbuffer =>
    refine loadKey_of_rawKey ?_
    cases key with
    | text s => cases htext
    | torn t => cases htext
    | bytes raw => exact absurd rfl (hbytes raw)
    | buffer raw => exact absurd rfl (hbuffer raw)
    | _ => rfl
  | @text s h =>
    cases s with
    | whole s => exact loadKey_of_rawKey (keyOfText_of_count h)
    | torn t => exact loadKey_of_rawKey (if_pos h)
  | torn hlen => exact loadKey_of_rawKey (if_neg (not_not_intro hlen))
  | bytes h => exact loadKey_of_rawKey (keyOfBytes_of_size h)
  | buffer h => exact loadKey_of_rawKey (keyOfBytes_of_size h)
  | @digits s hlen h =>
    have hraw : keyOfText s = failKey .notHex := by
      rw [keyOfText_of_full hlen, h]
      rfl
    exact loadKey_of_rawKey hraw
  | range hraw h =>
    rw [loadKey, hraw]
    exact if_neg h
  | backend hraw hrange h =>
    rw [loadKey, hraw]
    exact (if_pos hrange).trans (if_neg h)

theorem exists_refused_of_rawKey {key : Value} (h : ∀ raw, rawKey key ≠ .ok raw) :
    ∃ check, Refused check key := by
  cases key with
  | text s =>
    by_cases hlen : (keyChars s).length = 2 * keyLength
    · cases hread : keyDigits (keyChars s) with
      | none => exact ⟨.digits, .digits hlen hread⟩
      | some raw => exact absurd (keyOfText_eq_ok_iff.mpr ⟨hlen, hread⟩) (h raw)
    · exact ⟨.size, .text (s := .whole s) hlen⟩
  | torn t =>
    by_cases hlen : (keyChars t.mended).length = 2 * keyLength
    · exact ⟨.digits, .torn hlen⟩
    · exact ⟨.size, .text (s := .torn t) hlen⟩
  | bytes raw => exact ⟨.size, .bytes fun hlen => h raw (keyOfBytes_ok hlen)⟩
  | buffer raw => exact ⟨.size, .buffer fun hlen => h raw (keyOfBytes_ok hlen)⟩
  | _ =>
    refine ⟨.type, .type rfl ?_ ?_⟩
    all_goals
      intro _ heq
      cases heq

/-- A value that is no key does not pass all checks. -/
theorem exists_refused {key : Value} (h : ∀ n, ¬Accepted n key) : ∃ check, Refused check key := by
  by_cases hread : ∃ raw, rawKey key = .ok raw
  · obtain ⟨raw, hraw⟩ := hread
    by_cases hrange : 0 < raw.toNat ∧ raw.toNat < Curve.order
    · by_cases hlen : raw.length = keyLength
      · have hform := (rawKey_eq_ok_iff hlen).mp hraw
        exact absurd ⟨denotes_of_keyForm hform hlen, hrange⟩ (h raw.toNat)
      · exact ⟨.backend, .backend hraw hrange hlen⟩
    · exact ⟨.range, .range hraw hrange⟩
  · exact exists_refused_of_rawKey fun raw hraw => hread ⟨raw, hraw⟩

/-! ## Operations with a key -/

/-- The operation works for the keys of the curve, which it knows by their numbers alone, and refuses
every other value by an error that discloses nothing but the check, the type and the size. -/
structure Guards {α : Type} (op : Value → Result α) : Prop where
  accepts : ∀ key, (∃ a, op key = .ok a) ↔ ∃ n, Accepted n key
  agrees : ∀ n key key', Accepted n key → Accepted n key' → op key = op key'
  refuses : ∀ key, (∀ n, ¬Accepted n key) → ∃ check e, Refused check key ∧ op key = .fail e ∧
    e.className = "InvalidKeyError" ∧ e.code = .errorCode .invalidKey
  discloses : ∀ check key key', Refused check key → Refused check key' →
    key.typeName = key'.typeName → keySize key = keySize key' →
    ∃ e, op key = .fail e ∧ op key' = .fail e

section

variable {α : Type} {op : Value → Result α} {next : Bytes → Result α}

theorem eq_fail_of_refused (hop : ∀ key, op key = loadKey key >>= next) {check : KeyCheck} {key : Value}
    (h : Refused check key) :
    op key = .fail (.invalidKey (check.cause key.typeName (keySize key)) none) := by
  rw [hop, loadKey_of_refused h]
  rfl

theorem eq_next_of_accepted (hop : ∀ key, op key = loadKey key >>= next) {n : Nat} {key : Value}
    (h : Accepted n key) : op key = next (Bytes.ofNat keyLength n) := by
  rw [hop, (loadKey_of_accepted h).1]
  rfl

/-- It is enough that the operation loads the key and then does not fail. -/
theorem guards_of_loadKey (hop : ∀ key, op key = loadKey key >>= next)
    (hnext : ∀ raw, IsKey raw → ∃ a, next raw = .ok a) : Guards op where
  accepts key := by
    constructor
    · rintro ⟨a, ha⟩
      rw [hop, bind_eq_ok] at ha
      obtain ⟨raw, hraw, -⟩ := ha
      exact ⟨raw.toNat, accepted_of_loadKey hraw⟩
    · rintro ⟨n, hn⟩
      rw [eq_next_of_accepted hop hn]
      exact hnext _ (loadKey_of_accepted hn).2
  agrees n key key' h h' := by
    rw [eq_next_of_accepted hop h, eq_next_of_accepted hop h']
  refuses key h := by
    obtain ⟨check, hcheck⟩ := exists_refused h
    exact ⟨check, _, hcheck, eq_fail_of_refused hop hcheck, rfl, rfl⟩
  discloses check key key' h h' htype hsize := by
    refine ⟨_, eq_fail_of_refused hop h, ?_⟩
    rw [eq_fail_of_refused hop h', htype, hsize]

end

variable {backend : SigningBackend}

theorem guards_publicKey : Guards (publicKey backend) :=
  guards_of_loadKey (fun _ => rfl) fun raw _ => ⟨4 :: backend.publicKey raw, rfl⟩

theorem guards_deriveAddress
    (hlength : ∀ {raw : Bytes}, IsKey raw → (backend.publicKey raw).length = 64) :
    Guards (deriveAddress backend) := by
  have hload : ∀ key, deriveAddress backend key =
      loadKey key >>= fun raw => Address.ofPublicKey (4 :: backend.publicKey raw) := by
    intro key
    rw [deriveAddress, publicKey]
    cases loadKey key with
    | error f => rfl
    | ok raw => rfl
  refine guards_of_loadKey hload fun raw hraw => ⟨.ofDigest (backend.publicKey raw), ?_⟩
  rw [Address.ofPublicKey, if_pos (by rw [List.length_cons, hlength hraw])]
  rfl

theorem guards_signHash {hash : Value} {digest : Bytes} (hhash : checkHash hash = .ok digest) :
    Guards (signHash backend hash) := by
  have hload : ∀ key, signHash backend hash key =
      loadKey key >>= fun raw => .ok (ofRaw (backend.sign digest raw)) := by
    intro key
    rw [signHash, hhash]
    rfl
  exact guards_of_loadKey hload fun raw _ => ⟨_, rfl⟩

/-- Deriving the address, deriving the public key and signing a hash accept the same keys, and none of
them discloses a refused one. -/
theorem key_operations_guard
    (hlength : ∀ {raw : Bytes}, IsKey raw → (backend.publicKey raw).length = 64) :
    Guards (deriveAddress backend) ∧ Guards (publicKey backend) ∧
    ∀ hash digest, checkHash hash = .ok digest → Guards (signHash backend hash) :=
  ⟨guards_deriveAddress hlength, guards_publicKey, fun _ _ => guards_signHash⟩

/-- A key of one digit alone. -/
def repeated (c : Char) : String := String.ofList ([] ++ ([] ++ List.replicate 64 c) ++ [])

theorem keyChars_repeated {c : Char} (h : isHexDigit c = true) :
    keyChars (repeated c) = List.replicate 64 c := by
  refine keyChars_surrounded (List.forall_mem_nil _) (by decide) (fun d hd => ?_) (List.forall_mem_nil _)
  rw [List.eq_of_mem_replicate hd]
  exact h

theorem refused_repeated {c : Char} (h : isHexDigit c = true) {raw : Bytes}
    (hread : keyDigits (List.replicate 64 c) = some raw)
    (hrange : ¬(0 < raw.toNat ∧ raw.toNat < Curve.order)) :
    Refused .range (.text (repeated c)) ∧ keySize (.text (repeated c)) = 64 := by
  have hchars := keyChars_repeated h
  have hraw : keyOfText (repeated c) = .ok raw := by
    rw [keyOfText_eq_ok_iff, hchars]
    exact ⟨List.length_replicate, hread⟩
  refine ⟨.range hraw hrange, ?_⟩
  show (keyChars (repeated c)).length = 64
  rw [hchars, List.length_replicate]

/-- The unit key is the same as bytes and as text, and a key too large is refused as the key zero is. -/
theorem secp256k1_guards :
    (∃ a, deriveAddress secp256k1 (.bytes unitKey) = .ok a ∧ deriveAddress secp256k1 unitKeyText = .ok a) ∧
    ∃ e, signHash secp256k1 (.bytes greeting) (.text (repeated 'f')) = .fail e ∧
      signHash secp256k1 (.bytes greeting) (.text (repeated '0')) = .fail e := by
  have hlength : ∀ {raw : Bytes}, IsKey raw → (secp256k1.publicKey raw).length = 64 :=
    fun _ => Curve.Point.toBytes_length _
  obtain ⟨hderive, -, hsign⟩ := key_operations_guard hlength
  have hunit : IsKey unitKey := ⟨by decide, by decide, by decide⟩
  have hbytes : Accepted unitKey.toNat (.bytes unitKey) :=
    ⟨denotes_of_keyForm .bytes hunit.1, hunit.2⟩
  have htext : Accepted unitKey.toNat unitKeyText :=
    ⟨denotes_of_keyForm keyForm_unitKeyText hunit.1, hunit.2⟩
  obtain ⟨hlarge, hsize⟩ := refused_repeated (c := 'f') rfl rfl (by decide)
  obtain ⟨hzero, hsize'⟩ := refused_repeated (c := '0') rfl rfl (by decide)
  obtain ⟨a, ha⟩ := (hderive.accepts _).mpr ⟨_, hbytes⟩
  refine ⟨⟨a, ha, ?_⟩, ?_⟩
  · rw [hderive.agrees _ _ _ htext hbytes, ha]
  · exact (hsign (.bytes greeting) greeting rfl).discloses .range _ _ hlarge hzero rfl
      (hsize.trans hsize'.symm)

end LedgerClient.Signer
