import LedgerClient.Proofs.Hexadecimal
import LedgerClient.Proofs.Result
import LedgerClient.Proofs.Text.Blank
import LedgerClient.Signer

/-!
# The forms of a key

A key is accepted as 32 bytes, in a buffer or not, and as their 64 hexadecimal digits in any case,
with or without a marker and with blanks around the whole. No other value is accepted, and the
number of the key lies strictly between zero and the order of the curve.
-/

namespace LedgerClient.Signer

open Bytes

/-- What may stand in front of the digits. -/
def markers : List (List Char) := [[], ['0', 'x'], ['0', 'X']]

/-- The values that stand for a key. -/
inductive KeyForm (raw : Bytes) : Value → Prop where
  | bytes : KeyForm raw (.bytes raw)
  | buffer : KeyForm raw (.buffer raw)
  | text {before marker digits after : List Char} (hbefore : ∀ c ∈ before, Text.isBlank c = true)
      (hmarker : marker ∈ markers) (hdigits : ofHexChars digits = some raw)
      (hafter : ∀ c ∈ after, Text.isBlank c = true) :
      KeyForm raw (.text (String.ofList (before ++ (marker ++ digits) ++ after)))

theorem not_isBlank_of_isHexDigit {c : Char} (h : isHexDigit c = true) : Text.isBlank c = false :=
  of_isHexDigit (P := fun c => Text.isBlank c = false) (by decide) h

theorem not_isBlank_of_mem_marker {marker : List Char} (hmarker : marker ∈ markers) {c : Char}
    (hc : c ∈ marker) : Text.isBlank c = false := by
  simp only [markers, List.mem_cons, List.not_mem_nil, or_false] at hmarker
  rcases hmarker with rfl | rfl | rfl
  · cases hc
  · simp only [List.mem_cons, List.not_mem_nil, or_false] at hc
    rcases hc with rfl | rfl <;> rfl
  · simp only [List.mem_cons, List.not_mem_nil, or_false] at hc
    rcases hc with rfl | rfl <;> rfl

/-- Digits do not look like a marker, so only a marker is dropped. -/
theorem dropMarker_append {marker digits : List Char} (hmarker : marker ∈ markers)
    (hdigits : ∀ c ∈ digits, isHexDigit c = true) :
    Address.dropMarker (marker ++ digits) = digits := by
  simp only [markers, List.mem_cons, List.not_mem_nil, or_false] at hmarker
  rcases hmarker with rfl | rfl | rfl
  · rw [List.nil_append]
    unfold Address.dropMarker
    split
    · exact absurd (hdigits 'x' (by simp)) (by decide)
    · exact absurd (hdigits 'X' (by simp)) (by decide)
    · rfl
  · rfl
  · rfl

theorem exists_marker (s : List Char) : ∃ marker ∈ markers, s = marker ++ Address.dropMarker s := by
  unfold Address.dropMarker
  split
  · exact ⟨['0', 'x'], by decide, rfl⟩
  · exact ⟨['0', 'X'], by decide, rfl⟩
  · exact ⟨[], by decide, rfl⟩

/-- The characters of a key without its blanks and its marker. -/
def keyChars (s : String) : List Char := Address.dropMarker (Text.trimChars s.toList)

theorem keyChars_surrounded {before marker digits after : List Char}
    (hbefore : ∀ c ∈ before, Text.isBlank c = true) (hmarker : marker ∈ markers)
    (hdigits : ∀ c ∈ digits, isHexDigit c = true) (hafter : ∀ c ∈ after, Text.isBlank c = true) :
    keyChars (String.ofList (before ++ (marker ++ digits) ++ after)) = digits := by
  have hkept : ∀ c ∈ marker ++ digits, Text.isBlank c = false := by
    intro c hc
    rcases List.mem_append.mp hc with hc | hc
    · exact not_isBlank_of_mem_marker hmarker hc
    · exact not_isBlank_of_isHexDigit (hdigits c hc)
  rw [keyChars, String.toList_ofList, Text.trimChars, Text.trimBoth_surrounded hbefore hkept hafter,
    dropMarker_append hmarker hdigits]

theorem keyForm_text_iff {s : String} {raw : Bytes} :
    KeyForm raw (.text s) ↔ ofHexChars (keyChars s) = some raw := by
  constructor
  · intro h
    generalize hkey : Value.text s = key at h
    cases h with
    | bytes => cases hkey
    | buffer => cases hkey
    | text hbefore hmarker hdigits hafter =>
      cases hkey
      rw [keyChars_surrounded hbefore hmarker (isHexDigit_of_ofHexChars hdigits) hafter, hdigits]
  · intro h
    obtain ⟨before, after, hbefore, hafter, htext⟩ := Text.exists_trimBoth Text.isBlank s.toList
    obtain ⟨marker, hmarker, htrimmed⟩ := exists_marker (Text.trimBoth Text.isBlank s.toList)
    rw [htrimmed] at htext
    rw [← String.ofList_toList (s := s), htext]
    exact .text hbefore hmarker h hafter

theorem keyDigits_of_ofHexChars {cs : List Char} {raw : Bytes} (h : ofHexChars cs = some raw) :
    keyDigits cs = some raw := by
  refine ofSpacedHexChars_of_ofHexChars (fun c hc => ?_) h
  have hkept := not_isBlank_of_isHexDigit hc
  rw [Text.isBlank, Bool.or_eq_false_iff, Bool.or_eq_false_iff] at hkept
  exact hkept.1.1

theorem keyOfText_of_count {s : String} (h : (keyChars s).length ≠ 2 * keyLength) :
    keyOfText s = failKey (.hexCount (keyChars s).length) := if_pos h

theorem keyOfText_of_full {s : String} (h : (keyChars s).length = 2 * keyLength) :
    keyOfText s = (keyDigits (keyChars s)).elim (failKey .notHex) .ok := by
  unfold keyChars at h ⊢
  unfold keyOfText
  simp only [if_neg (not_not_intro h)]
  cases keyDigits (Address.dropMarker (Text.trimChars s.toList)) with
  | none => rfl
  | some raw => rfl

theorem keyOfText_eq_ok_iff {s : String} {raw : Bytes} : keyOfText s = .ok raw ↔
    (keyChars s).length = 2 * keyLength ∧ keyDigits (keyChars s) = some raw := by
  by_cases hcount : (keyChars s).length = 2 * keyLength
  · rw [keyOfText_of_full hcount]
    cases hread : keyDigits (keyChars s) with
    | none => exact iff_of_false error_ne_ok fun h => by cases h.2
    | some bs => simp only [Option.elim_some, Except.ok.injEq, Option.some.injEq, hcount, true_and]
  · rw [keyOfText_of_count hcount]
    exact iff_of_false error_ne_ok fun h => hcount h.1

/-- A text is a key of full length only if no blank stands between its digits. -/
theorem keyOfText_eq_ok_iff_keyForm {s : String} {raw : Bytes} (hlen : raw.length = keyLength) :
    keyOfText s = .ok raw ↔ KeyForm raw (.text s) := by
  rw [keyOfText_eq_ok_iff, keyForm_text_iff]
  constructor
  · rintro ⟨hcount, hread⟩
    exact (ofHexChars_of_ofSpacedHexChars hread).2 (by rw [hcount, hlen])
  · intro h
    exact ⟨by rw [length_of_ofHexChars h, hlen], keyDigits_of_ofHexChars h⟩

theorem keyOfBytes_eq_ok_iff {bs raw : Bytes} :
    keyOfBytes bs = .ok raw ↔ bs.length = keyLength ∧ bs = raw := by
  unfold keyOfBytes
  by_cases hlen : bs.length = keyLength
  · rw [if_neg (not_not_intro hlen)]
    simp only [Except.ok.injEq, hlen, true_and]
  · rw [if_pos hlen]
    exact iff_of_false error_ne_ok fun h => hlen h.1

theorem keyOfTorn_ne_ok (t : Torn) (raw : Bytes) : keyOfTorn t ≠ .ok raw := by
  unfold keyOfTorn
  simp only
  split <;> exact error_ne_ok

theorem rawKey_eq_ok_iff {key : Value} {raw : Bytes} (hlen : raw.length = keyLength) :
    rawKey key = .ok raw ↔ KeyForm raw key := by
  constructor
  · intro h
    unfold rawKey at h
    split at h
    · exact (keyOfText_eq_ok_iff_keyForm hlen).mp h
    · exact absurd h (keyOfTorn_ne_ok _ raw)
    · obtain ⟨-, rfl⟩ := keyOfBytes_eq_ok_iff.mp h
      exact .bytes
    · obtain ⟨-, rfl⟩ := keyOfBytes_eq_ok_iff.mp h
      exact .buffer
    · cases h
  · intro h
    cases h with
    | bytes => exact keyOfBytes_ok hlen
    | buffer => exact keyOfBytes_ok hlen
    | text hbefore hmarker hdigits hafter =>
      exact (keyOfText_eq_ok_iff_keyForm hlen).mpr (.text hbefore hmarker hdigits hafter)

/-- The bytes of a number strictly between zero and the order. -/
def IsKey (raw : Bytes) : Prop :=
  raw.length = keyLength ∧ 0 < raw.toNat ∧ raw.toNat < Curve.order

/-- A key in any of its forms is loaded, and nothing else is. -/
theorem loadKey_eq_ok_iff {key : Value} {raw : Bytes} :
    loadKey key = .ok raw ↔ KeyForm raw key ∧ IsKey raw := by
  rw [loadKey, bind_eq_ok]
  constructor
  · rintro ⟨bs, hraw, h⟩
    split at h
    · next hrange =>
      split at h
      · next hlen =>
        cases h
        exact ⟨(rawKey_eq_ok_iff hlen).mp hraw, hlen, hrange⟩
      · cases h
    · cases h
  · rintro ⟨hform, hlen, hrange⟩
    refine ⟨raw, (rawKey_eq_ok_iff hlen).mpr hform, ?_⟩
    rw [if_pos hrange, if_pos hlen]

end LedgerClient.Signer
