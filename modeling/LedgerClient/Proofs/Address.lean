import LedgerClient.Address.Reading
import LedgerClient.Proofs.Hexadecimal
import LedgerClient.Proofs.Result

/-!
# The digits of an address

An address is read from its digits in any case, with a marker or not. Its checksum form is one of these
texts. Whatever is no address is refused by an error about the encoding.
-/

namespace LedgerClient.Address

/-- The digits of an address, in any case, behind a marker or not. -/
theorem ofHex_of_lower {a : Address} {s : String}
    (h : (dropMarker s.toList).map Char.toLower = a.hexChars) : ofHex s = .ok a := by
  have hlen : (dropMarker s.toList).length = 40 := by
    rw [← List.length_map (f := Char.toLower), h, hexChars, Bytes.toHexChars_length, a.length_eq]
  simp only [ofHex]
  rw [if_neg (by rw [hlen]; decide), Bytes.ofHexChars_of_lower h, Option.bind_some, ofBytes?_bytes]

theorem toLower_upperHex (c : Char) : (upperHex c).toLower = c.toLower := by
  by_cases h : c.toNat < 103
  · exact Bytes.of_toNat_lt (P := fun c => (upperHex c).toLower = c.toLower) (by decide) h
  · rw [upperHex, if_neg (by omega)]

theorem map_toLower_checksumChars (digits nibbles : List Char) :
    (checksumChars digits nibbles).map Char.toLower = digits.map Char.toLower := by
  induction digits generalizing nibbles with
  | nil => rw [checksumChars_nil]
  | cons c rest ih =>
    cases nibbles with
    | nil => rfl
    | cons nibble nibbles =>
      rw [checksumChars, List.map_cons, List.map_cons, ih nibbles]
      congr 1
      split
      · exact toLower_upperHex c
      · rfl

/-- The checksum form differs from the digits by letter case alone. -/
theorem exists_digits_checksum (a : Address) : ∃ digits : List Char,
    a.checksum = String.ofList ('0' :: 'x' :: digits) ∧ digits.map Char.toLower = a.hexChars := by
  refine ⟨checksumChars a.hexChars
    (Keccak.digest (a.hexChars.map fun c => UInt8.ofNat c.toNat)).toHexChars, ?_, ?_⟩
  · rw [checksum]
    exact String.ofList_append.symm
  · rw [map_toLower_checksumChars, hexChars, Bytes.map_toLower_toHexChars]

/-! ## Refusals -/

open Failure

theorem isEncoding_ofHex (s : String) : FailsOnly IsEncoding (ofHex s) := by
  unfold ofHex
  simp only
  split
  · exact failsOnly_encoding _
  · split
    · exact .ok _
    · exact failsOnly_encoding _

theorem isEncoding_ofTorn (t : Torn) : FailsOnly IsEncoding (ofTorn t) := by
  unfold ofTorn
  simp only
  split
  · exact failsOnly_encoding _
  · exact failsOnly_encoding _

theorem ofTorn_ne_ok (t : Torn) (a : Address) : ofTorn t ≠ .ok a := by
  unfold ofTorn
  simp only
  split <;> exact error_ne_ok

theorem isEncoding_ofByteString (bs : Bytes) : FailsOnly IsEncoding (ofByteString bs) := by
  unfold ofByteString
  split
  · exact .ok _
  · exact failsOnly_encoding _

theorem isEncoding_decode (v : Value) : FailsOnly IsEncoding (decode v) := by
  unfold decode
  split
  · exact isEncoding_ofHex _
  · exact isEncoding_ofTorn _
  · exact failsOnly_encoding _

theorem isEncoding_coerce (field : String) (v : Value) : FailsOnly IsEncoding (coerce field v) := by
  unfold coerce
  split
  · exact .ok _
  · exact isEncoding_ofHex _
  · exact isEncoding_ofTorn _
  · exact isEncoding_ofByteString _
  · exact isEncoding_ofByteString _
  · exact failsOnly_encoding _

end LedgerClient.Address
