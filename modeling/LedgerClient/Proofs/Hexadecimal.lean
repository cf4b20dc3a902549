import LedgerClient.Bytes
import LedgerClient.Number.Integer

/-!
# Hexadecimal text

A byte string is read from its digits alone, two digits a byte and in either case. Blanks between
the bytes are skipped by the reader that allows them, which changes nothing for a text without
blanks. The number of the bytes is that of the digits.
-/

namespace LedgerClient.Bytes

/-- Only the values of the digits count. -/
theorem ofHexChars_congr {s t : List Char} (h : s.map hexValue? = t.map hexValue?) :
    ofHexChars s = ofHexChars t := by
  have hlen : s.length = t.length := by
    rw [← List.length_map (f := hexValue?), h, List.length_map]
  match s, t with
  | [], [] => rfl
  | [c], [e] => rfl
  | c :: d :: s, e :: f :: t =>
    simp only [List.map_cons, List.cons.injEq] at h
    rw [ofHexChars, ofHexChars, h.1, h.2.1, ofHexChars_congr h.2.2]

/-- Two digits are read as the first byte. -/
theorem ofHexChars_cons {high low : Char} {rest : List Char} {bs : Bytes}
    (h : ofHexChars (high :: low :: rest) = some bs) : ∃ m n tail, hexValue? high = some m ∧
      hexValue? low = some n ∧ ofHexChars rest = some tail ∧ bs = UInt8.ofNat (16 * m + n) :: tail := by
  simp only [ofHexChars, Option.bind_eq_bind, Option.bind_eq_some_iff, Option.pure_def,
    Option.some.injEq] at h
  obtain ⟨m, hm, n, hn, tail, htail, rfl⟩ := h
  exact ⟨m, n, tail, hm, hn, htail, rfl⟩

theorem isHexDigit_of_ofHexChars {s : List Char} {bs : Bytes} (h : ofHexChars s = some bs) :
    ∀ c ∈ s, isHexDigit c = true := by
  match s, h with
  | [], _ => exact fun c hc => absurd hc List.not_mem_nil
  | [_], h => cases h
  | high :: low :: rest, h =>
    obtain ⟨m, n, tail, hm, hn, htail, -⟩ := ofHexChars_cons h
    intro c hc
    rcases List.mem_cons.mp hc with rfl | hc
    · rw [isHexDigit, hm]
      rfl
    · rcases List.mem_cons.mp hc with rfl | hc
      · rw [isHexDigit, hn]
        rfl
      · exact isHexDigit_of_ofHexChars htail c hc

theorem length_of_ofHexChars {s : List Char} {bs : Bytes} (h : ofHexChars s = some bs) :
    s.length = 2 * bs.length := by
  match s, h with
  | [], h =>
    cases h
    rfl
  | [_], h => cases h
  | high :: low :: rest, h =>
    obtain ⟨m, n, tail, -, -, htail, rfl⟩ := ofHexChars_cons h
    have ih := length_of_ofHexChars htail
    simp only [List.length_cons]
    omega

theorem lt_of_isHexDigit {c : Char} (h : isHexDigit c = true) : c.toNat < 103 := by
  unfold isHexDigit hexValue? at h
  simp only at h
  repeat' split at h
  · omega
  · omega
  · omega
  · cases h

/-- A property of characters that is checked on their codes below a bound. -/
theorem of_toNat_lt {P : Char → Prop} {bound : Nat} (hall : ∀ n < bound, P (Char.ofNat n)) {c : Char}
    (h : c.toNat < bound) : P c := by
  have hc := hall c.toNat h
  rw [Char.ofNat_toNat] at hc
  exact hc

/-- No hexadecimal digit stands behind `f` in the order of the codes. -/
theorem of_isHexDigit {P : Char → Prop} (hall : ∀ n < 103, isHexDigit (Char.ofNat n) = true →
    P (Char.ofNat n)) {c : Char} (h : isHexDigit c = true) : P c :=
  of_toNat_lt (P := fun c => isHexDigit c = true → P c) hall (lt_of_isHexDigit h) h

/-- The digits are those of the hexadecimal alphabet and no other character. -/
theorem isHexDigit_iff_mem (c : Char) :
    isHexDigit c = true ↔ c ∈ "0123456789abcdefABCDEF".toList := by
  constructor
  · exact of_isHexDigit (P := fun c => c ∈ "0123456789abcdefABCDEF".toList) (by decide)
  · have hall : "0123456789abcdefABCDEF".toList.all isHexDigit = true := by decide
    exact fun hc => List.all_eq_true.mp hall c hc

/-- An even number of digits is always read. -/
theorem exists_ofHexChars {s : List Char} {k : Nat} (hlen : s.length = 2 * k)
    (hhex : ∀ c ∈ s, isHexDigit c = true) : ∃ bs, ofHexChars s = some bs := by
  induction k generalizing s with
  | zero =>
    obtain rfl : s = [] := List.length_eq_zero_iff.mp hlen
    exact ⟨[], rfl⟩
  | succ k ih =>
    match s, hlen with
    | high :: low :: rest, hlen =>
      simp only [List.length_cons] at hlen
      obtain ⟨m, hm⟩ := Option.isSome_iff_exists.mp (hhex high List.mem_cons_self)
      obtain ⟨n, hn⟩ := Option.isSome_iff_exists.mp
        (hhex low (List.mem_cons_of_mem _ List.mem_cons_self))
      obtain ⟨tail, htail⟩ := ih (s := rest) (by omega) fun c hc =>
        hhex c (List.mem_cons_of_mem _ (List.mem_cons_of_mem _ hc))
      refine ⟨UInt8.ofNat (16 * m + n) :: tail, ?_⟩
      simp only [ofHexChars, hm, hn, htail, Option.bind_eq_bind, Option.bind_some, Option.pure_def]

/-! ## Numbers -/

/-- A byte counts as its two digits, whatever stands in front. -/
theorem exists_digits_of_ofHexChars {s : List Char} {bs : Bytes} (h : ofHexChars s = some bs) :
    ∃ digits, s.mapM hexValue? = some digits ∧ ∀ n, digits.foldl (fun n d => 16 * n + d) n =
      bs.foldl (fun n b => 256 * n + b.toNat) n := by
  match s, h with
  | [], h =>
    cases h
    exact ⟨[], rfl, fun _ => rfl⟩
  | [_], h => cases h
  | high :: low :: rest, h =>
    obtain ⟨m, k, tail, hm, hk, htail, rfl⟩ := ofHexChars_cons h
    obtain ⟨digits, hdigits, hfold⟩ := exists_digits_of_ofHexChars htail
    have hsmall : m < 16 ∧ k < 16 := ⟨hexValue?_lt hm, hexValue?_lt hk⟩
    have hbyte : (UInt8.ofNat (16 * m + k)).toNat = 16 * m + k := by
      rw [UInt8.toNat_ofNat']
      omega
    refine ⟨m :: k :: digits, ?_, fun n => ?_⟩
    · simp only [List.mapM_cons, hm, hk, hdigits, Option.bind_eq_bind, Option.bind_some,
        Option.pure_def]
    · have hpair : 16 * (16 * n + m) + k = 256 * n + (16 * m + k) := by omega
      rw [List.foldl_cons, List.foldl_cons, List.foldl_cons, hbyte, hfold, hpair]

theorem isHexDigit_of_mapM {s : List Char} {digits : List Nat} (h : s.mapM hexValue? = some digits) :
    ∀ c ∈ s, isHexDigit c = true := by
  induction s generalizing digits with
  | nil => exact List.forall_mem_nil _
  | cons c s ih =>
    simp only [List.mapM_cons, Option.bind_eq_bind, Option.bind_eq_some_iff, Option.pure_def] at h
    obtain ⟨d, hd, ds, hds, -⟩ := h
    exact List.forall_mem_cons.mpr ⟨Option.isSome_iff_exists.mpr ⟨d, hd⟩, ih hds⟩

/-- As many bytes as the digits make are read, and they are the number of the digits. -/
theorem exists_ofHexChars_of_mapM {s : List Char} {digits : List Nat} {k : Nat}
    (hlen : s.length = 2 * k) (h : s.mapM hexValue? = some digits) : ∃ bs, ofHexChars s = some bs ∧
      bs.length = k ∧ bs.toNat = Integer.ofDigits 16 digits := by
  obtain ⟨bs, hbs⟩ := exists_ofHexChars hlen (isHexDigit_of_mapM h)
  obtain ⟨digits', hdigits', hfold⟩ := exists_digits_of_ofHexChars hbs
  rw [h] at hdigits'
  cases hdigits'
  have hcount := length_of_ofHexChars hbs
  exact ⟨bs, hbs, by omega, (hfold 0).symm⟩

/-! ## Letter case -/

theorem hexValue?_toLower (c : Char) : hexValue? c.toLower = hexValue? c := by
  by_cases h : c.toNat < 103
  · exact of_toNat_lt (P := fun c => hexValue? c.toLower = hexValue? c) (by decide) h
  · -- The capitals stand before the digits in lower case.
    have hkept : c.toLower = c :=
      dif_neg fun hcapital => h (Nat.lt_of_le_of_lt hcapital.2 (by decide))
    rw [hkept]

theorem toLower_hexDigit {n : Nat} (h : n < 16) : (hexDigit n).toLower = hexDigit n := by
  revert n
  decide

theorem map_toLower_toHexChars (bs : Bytes) : bs.toHexChars.map Char.toLower = bs.toHexChars := by
  induction bs with
  | nil => rfl
  | cons b rest ih =>
    have hb : b.toNat < 256 := b.toNat_lt
    rw [toHexChars, List.map_cons, List.map_cons, ih, toLower_hexDigit (by omega),
      toLower_hexDigit (by omega)]

/-- Digits are read alike in any case. -/
theorem ofHexChars_of_lower {s : List Char} {bs : Bytes} (h : s.map Char.toLower = bs.toHexChars) :
    ofHexChars s = some bs := by
  have hvalues : s.map hexValue? = bs.toHexChars.map hexValue? := by
    rw [← h, List.map_map]
    exact List.map_congr_left fun c _ => (hexValue?_toLower c).symm
  rw [ofHexChars_congr hvalues, ofHexChars_toHexChars]

theorem toLower_eq_hexDigit {c : Char} {n : Nat} (h : hexValue? c = some n) :
    c.toLower = hexDigit n := by
  have hhex : isHexDigit c = true := by
    rw [isHexDigit, h]
    rfl
  have hlower : c.toLower = hexDigit ((hexValue? c).getD 0) :=
    of_isHexDigit (P := fun c => c.toLower = hexDigit ((hexValue? c).getD 0)) (by decide) hhex
  rwa [h, Option.getD_some] at hlower

theorem lower_of_ofHexChars {s : List Char} {bs : Bytes} (h : ofHexChars s = some bs) :
    s.map Char.toLower = bs.toHexChars := by
  match s, h with
  | [], h =>
    cases h
    rfl
  | [_], h => cases h
  | high :: low :: rest, h =>
    obtain ⟨m, n, tail, hm, hn, htail, rfl⟩ := ofHexChars_cons h
    have hsmall : m < 16 ∧ n < 16 := ⟨hexValue?_lt hm, hexValue?_lt hn⟩
    have hbyte : (UInt8.ofNat (16 * m + n)).toNat = 16 * m + n := by
      rw [UInt8.toNat_ofNat']
      omega
    have hhigh : (16 * m + n) / 16 = m := by omega
    have hlow : (16 * m + n) % 16 = n := by omega
    rw [List.map_cons, List.map_cons, toHexChars, hbyte, hhigh, hlow, toLower_eq_hexDigit hm,
      toLower_eq_hexDigit hn, lower_of_ofHexChars htail]

/-- A text is read as these bytes exactly when it spells their digits, in any case. -/
theorem ofHexChars_eq_some_iff {s : List Char} {bs : Bytes} :
    ofHexChars s = some bs ↔ s.map Char.toLower = bs.toHexChars :=
  ⟨lower_of_ofHexChars, ofHexChars_of_lower⟩

/-! ## Blanks between the bytes -/

variable {blank : Char → Bool}

theorem ofSpacedHexChars_of_ofHexChars (hblank : ∀ c, isHexDigit c = true → blank c = false)
    {s : List Char} {bs : Bytes} (h : ofHexChars s = some bs) :
    ofSpacedHexChars blank s = some bs := by
  match s, h with
  | [], h => exact h
  | [_], h => cases h
  | high :: low :: rest, h =>
    have hhigh := hblank high (isHexDigit_of_ofHexChars h high List.mem_cons_self)
    obtain ⟨m, n, tail, hm, hn, htail, rfl⟩ := ofHexChars_cons h
    have ih := ofSpacedHexChars_of_ofHexChars hblank htail
    rw [ofSpacedHexChars, hhigh, if_neg Bool.false_ne_true]
    simp only [hm, hn, ih, Option.bind_eq_bind, Option.bind_some, Option.pure_def]

/-- Blanks take characters that no byte is read from. -/
theorem ofHexChars_of_ofSpacedHexChars {s : List Char} {bs : Bytes}
    (h : ofSpacedHexChars blank s = some bs) :
    2 * bs.length ≤ s.length ∧ (s.length = 2 * bs.length → ofHexChars s = some bs) := by
  match s, h with
  | [], h =>
    cases h
    exact ⟨Nat.le_refl 0, fun _ => rfl⟩
  | high :: rest, h =>
    unfold ofSpacedHexChars at h
    split at h
    · obtain ⟨hle, -⟩ := ofHexChars_of_ofSpacedHexChars h
      rw [List.length_cons]
      exact ⟨by omega, fun heq => by omega⟩
    · match rest, h with
      | [], h => cases h
      | low :: rest, h =>
        simp only [Option.bind_eq_bind, Option.bind_eq_some_iff, Option.pure_def,
          Option.some.injEq] at h
        obtain ⟨m, hm, n, hn, tail, htail, rfl⟩ := h
        obtain ⟨hle, hread⟩ := ofHexChars_of_ofSpacedHexChars htail
        simp only [List.length_cons]
        refine ⟨by omega, fun heq => ?_⟩
        simp only [ofHexChars, hm, hn, hread (by omega), Option.bind_eq_bind, Option.bind_some,
          Option.pure_def]

end LedgerClient.Bytes
