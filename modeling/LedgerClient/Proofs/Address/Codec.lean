import LedgerClient.Proofs.Address
import LedgerClient.Proofs.Signer.Key
import Mathlib.Data.Finset.Card

/-!
# Addresses and their texts

The texts of addresses are forty hexadecimal digits, in any case and behind a marker or not, and no
others. The digits alone, whatever their case, are the address.
-/

namespace LedgerClient.Address

open Bytes (isHexDigit ofHexChars)

/-- The text of forty digits behind a marker or none. -/
structure HexForm (digits : List Char) (t : String) : Prop where
  marked : ∃ marker ∈ Signer.markers, t = String.ofList (marker ++ digits)
  length_eq : digits.length = 40
  mem_alphabet : ∀ c ∈ digits, c ∈ "0123456789abcdefABCDEF".toList

variable {digits : List Char} {t : String} {a b : Address}

/-- A marker is told apart from the digits behind it. -/
theorem ofHex_of_marked {marker : List Char} (hmarker : marker ∈ Signer.markers)
    (hdigits : digits.map Char.toLower = a.hexChars) :
    ofHex (String.ofList (marker ++ digits)) = .ok a := by
  have hhex : ∀ c ∈ digits, isHexDigit c = true :=
    Bytes.isHexDigit_of_ofHexChars (Bytes.ofHexChars_of_lower hdigits)
  refine ofHex_of_lower ?_
  rw [String.toList_ofList, Signer.dropMarker_append hmarker hhex, hdigits]

theorem HexForm.isHexDigit (h : HexForm digits t) : ∀ c ∈ digits, isHexDigit c = true :=
  fun c hc => (Bytes.isHexDigit_iff_mem c).mpr (h.mem_alphabet c hc)

theorem HexForm.dropMarker_eq (h : HexForm digits t) : dropMarker t.toList = digits := by
  obtain ⟨marker, hmarker, rfl⟩ := h.marked
  rw [String.toList_ofList]
  exact Signer.dropMarker_append hmarker h.isHexDigit

/-- Whatever is read has this form. -/
theorem exists_hexForm (h : ofHex t = .ok a) :
    ∃ digits, HexForm digits t ∧ digits.map Char.toLower = a.hexChars := by
  obtain ⟨marker, hmarker, htext⟩ := Signer.exists_marker t.toList
  simp only [ofHex] at h
  split at h
  · cases h
  · next hcount =>
    cases hbytes : (ofHexChars (dropMarker t.toList)).bind ofBytes? with
    | none =>
      rw [hbytes] at h
      cases h
    | some a' =>
      rw [hbytes] at h
      obtain rfl : a' = a := Except.ok.inj h
      obtain ⟨bs, hread, hbs⟩ := Option.bind_eq_some_iff.mp hbytes
      refine ⟨dropMarker t.toList, ⟨⟨marker, hmarker, ?_⟩, Decidable.not_not.mp hcount, ?_⟩, ?_⟩
      · rw [← htext, String.ofList_toList]
      · exact fun c hc => (Bytes.isHexDigit_iff_mem c).mp (Bytes.isHexDigit_of_ofHexChars hread c hc)
      · rw [Bytes.ofHexChars_eq_some_iff.mp hread, hexChars, bytes_of_ofBytes? hbs]

theorem exists_ofHex (h : HexForm digits t) : ∃ a, ofHex t = .ok a := by
  obtain ⟨bs, hbs⟩ := Bytes.exists_ofHexChars (k := 20) h.length_eq h.isHexDigit
  have hlen : bs.length = 20 := by
    have hdouble := Bytes.length_of_ofHexChars hbs
    rw [h.length_eq] at hdouble
    omega
  obtain ⟨marker, hmarker, rfl⟩ := h.marked
  exact ⟨⟨bs, hlen⟩, ofHex_of_marked hmarker (Bytes.ofHexChars_eq_some_iff.mp hbs)⟩

/-- What is read from the digits is the address that has them, in lower case. -/
theorem HexForm.ofHex_eq_ok_iff (h : HexForm digits t) :
    ofHex t = .ok a ↔ digits.map Char.toLower = a.hexChars := by
  constructor
  · intro ha
    obtain ⟨digits', h', hlower⟩ := exists_hexForm ha
    rwa [← h'.dropMarker_eq, h.dropMarker_eq] at hlower
  · intro hlower
    obtain ⟨marker, hmarker, rfl⟩ := h.marked
    exact ofHex_of_marked hmarker hlower

theorem hexChars_injective (h : a.hexChars = b.hexChars) : a = b := by
  refine ext (Option.some.inj ?_)
  rw [← Bytes.ofHexChars_toHexChars a.bytes, ← Bytes.ofHexChars_toHexChars b.bytes]
  exact congrArg ofHexChars h

/-- Both written forms of an address are read back as that address. -/
theorem ofHex_checksum (a : Address) : ofHex a.checksum = .ok a := by
  obtain ⟨digits, htext, hlower⟩ := exists_digits_checksum a
  have hmarker : ['0', 'x'] ∈ Signer.markers := by decide
  rw [htext]
  show ofHex (String.ofList (['0', 'x'] ++ digits)) = _
  exact ofHex_of_marked hmarker hlower

theorem ofHex_hex (a : Address) : ofHex a.hex = .ok a := by
  have hmarker : ['0', 'x'] ∈ Signer.markers := by decide
  have htext : a.hex = String.ofList (['0', 'x'] ++ a.hexChars) := by
    rw [hex, String.ofList_append]
  rw [htext]
  exact ofHex_of_marked hmarker (Bytes.map_toLower_toHexChars a.bytes)

theorem isValid_eq_true_iff (v : Value) : isValid v = true ↔ ∃ a, decode v = .ok a := by
  unfold isValid
  cases decode v with
  | error f => exact iff_of_false Bool.false_ne_true (fun ⟨a, h⟩ => error_ne_ok h)
  | ok a => exact iff_of_true rfl ⟨a, rfl⟩

theorem card_pair_eq_one_iff : ({a, b} : Finset Address).card = 1 ↔ a = b := by
  constructor
  · intro hone
    by_contra hne
    rw [Finset.card_pair hne] at hone
    exact absurd hone (by decide)
  · rintro rfl
    rw [Finset.pair_eq_singleton, Finset.card_singleton]

/-- A text is decoded exactly when it has the form, every other value is refused by an error about the
encoding, and validity is that verdict. The address has the digits in lower case, both of its written
forms are decoded as itself, and two texts are one address exactly when their digits agree up to case. -/
theorem decode_settles :
    (∀ t, (∃ a, decode (.text t) = .ok a) ↔ ∃ digits, HexForm digits t) ∧
    (∀ v, FailsOnly Failure.IsEncoding (decode v)) ∧
    (∀ v, isValid v = true ↔ ∃ t digits, v = .text t ∧ HexForm digits t) ∧
    (∀ t digits a, HexForm digits t → decode (.text t) = .ok a →
      a.hex = "0x" ++ String.ofList (digits.map Char.toLower)) ∧
    (∀ a : Address, (do let t ← encode (.address a); decode (.text t)) = .ok a ∧
      decode (.text a.hex) = .ok a) ∧
    (∀ t digits u others a b, HexForm digits t → HexForm others u → decode (.text t) = .ok a →
      decode (.text u) = .ok b →
        (a = b ↔ digits.map Char.toLower = others.map Char.toLower) ∧
        (({a, b} : Finset Address).card = 1 ↔
          digits.map Char.toLower = others.map Char.toLower)) := by
  have hdecode : ∀ t, (∃ a, decode (.text t) = .ok a) ↔ ∃ digits, HexForm digits t := by
    intro t
    constructor
    · rintro ⟨a, ha⟩
      obtain ⟨digits, h, -⟩ := exists_hexForm ha
      exact ⟨digits, h⟩
    · rintro ⟨digits, h⟩
      exact exists_ofHex h
  refine ⟨hdecode, isEncoding_decode, fun v => ?_, fun t digits a h ha => ?_,
    fun a => ⟨ofHex_checksum a, ofHex_hex a⟩, fun t digits u others a b h hothers ha hb => ?_⟩
  · rw [isValid_eq_true_iff]
    constructor
    · rintro ⟨a, ha⟩
      cases v with
      | text t =>
        obtain ⟨digits, h⟩ := (hdecode t).mp ⟨a, ha⟩
        exact ⟨t, digits, rfl, h⟩
      | torn t => exact absurd ha (ofTorn_ne_ok t a)
      | _ => cases ha
    · rintro ⟨t, digits, rfl, h⟩
      exact (hdecode t).mpr ⟨digits, h⟩
  · rw [h.ofHex_eq_ok_iff.mp ha]
    rfl
  · have hsame : a = b ↔ digits.map Char.toLower = others.map Char.toLower := by
      rw [h.ofHex_eq_ok_iff.mp ha, hothers.ofHex_eq_ok_iff.mp hb]
      exact ⟨congrArg hexChars, hexChars_injective⟩
    exact ⟨hsame, card_pair_eq_one_iff.trans hsame⟩

/-- Digits of both cases behind a marker with a capital. -/
def mixedDigits : List Char := (List.replicate 20 ['a', 'B']).flatten

theorem mem_alphabet_of_mem_mixedDigits {c : Char} (h : c ∈ mixedDigits) :
    c ∈ "0123456789abcdefABCDEF".toList := by
  obtain ⟨pair, hpair, hc⟩ := List.mem_flatten.mp h
  obtain rfl := List.eq_of_mem_replicate hpair
  rcases List.mem_pair.mp hc with rfl | rfl <;> decide

/-- They are decoded to the address in lower case. -/
theorem decode_mixed : ∃ a, decode (.text (String.ofList ('0' :: 'X' :: mixedDigits))) = .ok a ∧
    a.hex = "0x" ++ String.ofList (List.replicate 20 ['a', 'b']).flatten ∧
    isValid (.text (String.ofList ('0' :: 'X' :: mixedDigits))) = true := by
  have hform : HexForm mixedDigits (String.ofList ('0' :: 'X' :: mixedDigits)) :=
    ⟨⟨['0', 'X'], by decide, rfl⟩, rfl, fun c hc => mem_alphabet_of_mem_mixedDigits hc⟩
  obtain ⟨hdecode, -, hvalid, hhex, -⟩ := decode_settles
  obtain ⟨a, ha⟩ := (hdecode _).mpr ⟨_, hform⟩
  refine ⟨a, ha, ?_, (hvalid _).mpr ⟨_, _, rfl, hform⟩⟩
  rw [hhex _ _ a hform ha]
  rfl

end LedgerClient.Address
