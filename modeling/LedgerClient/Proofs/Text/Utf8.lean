import LedgerClient.Proofs.Bytes
import LedgerClient.Text.Utf8

/-!
# UTF-8 in both directions

A byte string is the encoding of at most one text, and the strict reader finds it. The lenient
reader, which replaces what is malformed, gives back every text that was encoded.
-/

namespace LedgerClient.Text

theorem toByteArray_utf8 (s : String) : (utf8 s).toByteArray = s.toByteArray :=
  String.utf8Encode_toList

theorem utf8_injective {s t : String} (h : utf8 s = utf8 t) : s = t := by
  rw [← String.toByteArray_inj, ← toByteArray_utf8, h, toByteArray_utf8]

/-- The text that the bytes encode; malformed bytes encode none. -/
def ofStrictUtf8? (bs : Bytes) : Option String := String.fromUTF8? bs.toByteArray

theorem ofStrictUtf8?_utf8 (s : String) : ofStrictUtf8? (utf8 s) = some s := by
  have hvalid : s.toByteArray.IsValidUTF8 := s.isValidUTF8
  rw [ofStrictUtf8?, toByteArray_utf8, String.fromUTF8?, dif_pos hvalid]
  rfl

theorem utf8_of_ofStrictUtf8? {bs : Bytes} {s : String} (h : ofStrictUtf8? bs = some s) :
    utf8 s = bs := by
  rw [ofStrictUtf8?, String.fromUTF8?] at h
  split at h
  · cases h
    exact List.toByteArray_inj.mp (toByteArray_utf8 _)
  · cases h

/-! ## Lenient reading -/

namespace Utf8

theorem decodeFrom_first {b : UInt8} {p : Pending} (h : lead b.toNat = .first p) (rest : Bytes) :
    decodeFrom none (b :: rest) = decodeFrom (some p) rest := by
  simp only [decodeFrom, step, start, h, List.nil_append]

theorem decodeFrom_more {b : UInt8} {need low high code : Nat} (hlow : low ≤ b.toNat)
    (hhigh : b.toNat ≤ high) (rest : Bytes) :
    decodeFrom (some ⟨need + 2, low, high, code⟩) (b :: rest) =
      decodeFrom (some ⟨need + 1, 0x80, 0xBF, 64 * code + (b.toNat - 0x80)⟩) rest := by
  simp only [decodeFrom, step]
  rw [if_pos ⟨hlow, hhigh⟩, if_neg (by omega), List.nil_append]
  rfl

theorem decodeFrom_last {b : UInt8} {low high code : Nat} (hlow : low ≤ b.toNat)
    (hhigh : b.toNat ≤ high) (rest : Bytes) :
    decodeFrom (some ⟨1, low, high, code⟩) (b :: rest) =
      Char.ofNat (64 * code + (b.toNat - 0x80)) :: decodeFrom none rest := by
  simp only [decodeFrom, step]
  rw [if_pos ⟨hlow, hhigh⟩, if_pos (Nat.le_refl 1), List.singleton_append]

/-- The bounds of the second byte, as the first byte gives them. -/
theorem lead_two {b : Nat} (hlow : 0xC2 ≤ b) (hhigh : b < 0xE0) :
    lead b = .first ⟨1, 0x80, 0xBF, b - 0xC0⟩ := by
  rw [lead, if_neg (by omega), if_neg (by omega), if_pos hhigh]

theorem lead_three {b : Nat} (hlow : 0xE0 ≤ b) (hhigh : b < 0xF0) :
    lead b = .first ⟨2, if b = 0xE0 then 0xA0 else 0x80, if b = 0xED then 0x9F else 0xBF,
      b - 0xE0⟩ := by
  rw [lead, if_neg (by omega), if_neg (by omega), if_neg (by omega)]
  by_cases h : b = 0xE0
  · rw [if_pos h, if_pos h, if_neg (by omega), h]
  · rw [if_neg h, if_neg h]
    by_cases h' : b = 0xED
    · rw [if_pos h', if_pos h']
    · rw [if_neg h', if_neg h', if_pos hhigh]

theorem lead_four {b : Nat} (hlow : 0xF0 ≤ b) (hhigh : b ≤ 0xF4) :
    lead b = .first ⟨3, if b = 0xF0 then 0x90 else 0x80, if b = 0xF4 then 0x8F else 0xBF,
      b - 0xF0⟩ := by
  rw [lead, if_neg (by omega), if_neg (by omega), if_neg (by omega), if_neg (by omega),
    if_neg (by omega), if_neg (by omega)]
  by_cases h : b = 0xF0
  · rw [if_pos h, if_pos h, if_neg (by omega), h]
  · rw [if_neg h, if_neg h]
    by_cases h' : b < 0xF4
    · rw [if_pos h', if_neg (by omega)]
    · rw [if_neg h', if_pos (by omega), if_pos (by omega)]

/-! The bytes of a code of each size, the leading digits first, denote its character. -/

theorem decodeFrom_two {v : Nat} (hlow : 0x7f < v) (hhigh : v ≤ 0x7ff) (rest : Bytes) :
    decodeFrom none (UInt8.ofNat (v / 64 % 0x20 + 0xc0) :: UInt8.ofNat (v % 0x40 + 0x80) :: rest) =
      Char.ofNat v :: decodeFrom none rest := by
  have hb0 : (UInt8.ofNat (v / 64 % 0x20 + 0xc0)).toNat = v / 64 + 0xc0 := by
    rw [Bytes.toNat_byte (by omega)]
    omega
  have hb1 : (UInt8.ofNat (v % 0x40 + 0x80)).toNat = v % 64 + 0x80 := Bytes.toNat_byte (by omega)
  have hcode : 64 * (v / 64 + 0xc0 - 0xC0) + (v % 64 + 0x80 - 0x80) = v := by omega
  rw [decodeFrom_first (lead_two (by omega) (by omega)), decodeFrom_last (by omega) (by omega), hb0,
    hb1, hcode]

/-- A surrogate is no character, which bounds the second byte behind `0xED`. -/
theorem decodeFrom_three {v : Nat} (hlow : 0x7ff < v) (hhigh : v ≤ 0xffff)
    (hvalid : v < 0xD800 ∨ 0xDFFF < v) (rest : Bytes) :
    decodeFrom none (UInt8.ofNat (v / 4096 % 0x10 + 0xe0) :: UInt8.ofNat (v / 64 % 0x40 + 0x80) ::
      UInt8.ofNat (v % 0x40 + 0x80) :: rest) = Char.ofNat v :: decodeFrom none rest := by
  have hb0 : (UInt8.ofNat (v / 4096 % 0x10 + 0xe0)).toNat = v / 4096 + 0xe0 := by
    rw [Bytes.toNat_byte (by omega)]
    omega
  have hb1 : (UInt8.ofNat (v / 64 % 0x40 + 0x80)).toNat = v / 64 % 64 + 0x80 :=
    Bytes.toNat_byte (by omega)
  have hb2 : (UInt8.ofNat (v % 0x40 + 0x80)).toNat = v % 64 + 0x80 := Bytes.toNat_byte (by omega)
  have hcode : 64 * (64 * (v / 4096 + 0xe0 - 0xE0) + (v / 64 % 64 + 0x80 - 0x80)) +
      (v % 64 + 0x80 - 0x80) = v := by omega
  rw [decodeFrom_first (lead_three (by omega) (by omega)),
    decodeFrom_more (by split <;> omega) (by split <;> omega),
    decodeFrom_last (by omega) (by omega), hb0, hb1, hb2, hcode]

theorem decodeFrom_four {v : Nat} (hlow : 0xffff < v) (hhigh : v < 0x110000) (rest : Bytes) :
    decodeFrom none (UInt8.ofNat (v / 262144 % 0x08 + 0xf0) :: UInt8.ofNat (v / 4096 % 0x40 + 0x80) ::
      UInt8.ofNat (v / 64 % 0x40 + 0x80) :: UInt8.ofNat (v % 0x40 + 0x80) :: rest) =
      Char.ofNat v :: decodeFrom none rest := by
  have hb0 : (UInt8.ofNat (v / 262144 % 0x08 + 0xf0)).toNat = v / 262144 + 0xf0 := by
    rw [Bytes.toNat_byte (by omega)]
    omega
  have hb1 : (UInt8.ofNat (v / 4096 % 0x40 + 0x80)).toNat = v / 4096 % 64 + 0x80 :=
    Bytes.toNat_byte (by omega)
  have hb2 : (UInt8.ofNat (v / 64 % 0x40 + 0x80)).toNat = v / 64 % 64 + 0x80 :=
    Bytes.toNat_byte (by omega)
  have hb3 : (UInt8.ofNat (v % 0x40 + 0x80)).toNat = v % 64 + 0x80 := Bytes.toNat_byte (by omega)
  have hcode : 64 * (64 * (64 * (v / 262144 + 0xf0 - 0xF0) + (v / 4096 % 64 + 0x80 - 0x80)) +
      (v / 64 % 64 + 0x80 - 0x80)) + (v % 64 + 0x80 - 0x80) = v := by omega
  rw [decodeFrom_first (lead_four (by omega) (by omega)),
    decodeFrom_more (by split <;> omega) (by split <;> omega),
    decodeFrom_more (by omega) (by omega), decodeFrom_last (by omega) (by omega), hb0, hb1, hb2, hb3, hcode]

theorem decodeFrom_utf8EncodeChar (c : Char) (rest : Bytes) :
    decodeFrom none (String.utf8EncodeChar c ++ rest) = c :: decodeFrom none rest := by
  have hvalid : c.val.toNat < 0xD800 ∨ 0xDFFF < c.val.toNat ∧ c.val.toNat < 0x110000 := c.valid
  have hc : Char.ofNat c.val.toNat = c := Char.ofNat_toNat c
  simp only [String.utf8EncodeChar]
  generalize c.val.toNat = v at hvalid hc
  subst hc
  by_cases h1 : v ≤ 0x7f
  · have hb : (UInt8.ofNat v).toNat = v := Bytes.toNat_byte (by omega)
    rw [if_pos h1, List.singleton_append, decodeFrom_ascii _ (by omega), hb]
  rw [if_neg h1]
  by_cases h2 : v ≤ 0x7ff
  · rw [if_pos h2]
    exact decodeFrom_two (by omega) h2 rest
  rw [if_neg h2]
  by_cases h3 : v ≤ 0xffff
  · rw [if_pos h3]
    exact decodeFrom_three (by omega) h3 (by omega) rest
  · rw [if_neg h3]
    exact decodeFrom_four (by omega) (by omega) rest

theorem decodeFrom_flatMap (cs : List Char) :
    decodeFrom none (cs.flatMap String.utf8EncodeChar) = cs := by
  induction cs with
  | nil => rfl
  | cons c cs ih => rw [List.flatMap_cons, decodeFrom_utf8EncodeChar, ih]

end Utf8

theorem ofUtf8_utf8 (s : String) : ofUtf8 (utf8 s) = s := by
  rw [ofUtf8, utf8, Utf8.decodeFrom_flatMap, String.ofList_toList]

end LedgerClient.Text
