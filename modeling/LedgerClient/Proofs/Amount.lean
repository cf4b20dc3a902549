import LedgerClient.Amount.Reading
import LedgerClient.Proofs.Number.Integer
import LedgerClient.Proofs.Result

/-!
# What is read as an amount

An integer is an amount exactly when it is in range, and a text when it is a numeral of such an integer:
ASCII digits between blanks, with any number of zeros in front. All others are refused, and the refusal of
an integer shows it. Neither a reading nor a refusal goes beyond the limit on digits: an integer without a
text and a numeral of more digits are a fault in place of an answer.
-/

namespace LedgerClient.TokenAmount

/-! ## Integers -/

theorem ofInt_eq_ok_iff {n : Int} {a : TokenAmount} : ofInt n = .ok a ↔ n = a.units := by
  constructor
  · intro h
    unfold ofInt at h
    split at h
    · next hn =>
      cases h
      exact (units_of_ofInt? hn).symm
    · obtain ⟨shown, -, hfail⟩ := bind_eq_ok.mp h
      cases hfail
  · rintro rfl
    exact ofInt_units a

/-- The integers that are no amounts. -/
theorem outside_iff {n : Int} : (∀ a : TokenAmount, n ≠ a.units) ↔ n < 0 ∨ 2 ^ 256 ≤ n := by
  constructor
  · intro h
    by_contra hin
    have hlt : n.toNat < 2 ^ 256 := by omega
    exact h ⟨n.toNat, hlt⟩ (Int.toNat_of_nonneg (by omega)).symm
  · rintro hout a rfl
    have hlt := a.units_lt
    omega

theorem ofInt?_eq_none {n : Int} (h : ∀ a : TokenAmount, n ≠ a.units) : ofInt? n = none := by
  cases hn : ofInt? n with
  | none => rfl
  | some a => exact absurd (units_of_ofInt? hn).symm (h a)

theorem ofInt_of_shown {n : Int} (h : ∀ a : TokenAmount, n ≠ a.units)
    (hn : n.natAbs < Integer.textBound) :
    ofInt n = .fail (.outOfRange "value" (Integer.decimal n) 256) := by
  rw [ofInt, ofInt?_eq_none h]
  simp only [Value.integerText_of_lt hn]
  rfl

/-- An integer without a text is beyond the range of amounts, and so is its refusal. -/
theorem ofInt_of_textless {n : Int} (hn : Integer.textBound ≤ n.natAbs) :
    ofInt n = .error (.fault .badValue) := by
  have hout : ∀ a : TokenAmount, n ≠ a.units := by
    rintro a rfl
    rw [Int.natAbs_natCast] at hn
    exact absurd (Integer.lt_textBound a.units_lt) (Nat.not_lt.mpr hn)
  rw [ofInt, ofInt?_eq_none hout]
  simp only [Value.integerText_of_le hn]
  rfl

/-! ## Numerals -/

/-- The text is these decimal digits between blanks. -/
structure IsNumeral (s : String) (digits : List Nat) : Prop where
  ne_nil : digits ≠ []
  lt : ∀ d ∈ digits, d < 10
  surrounded : ∃ before after, (∀ c ∈ before, Text.isBlank c = true) ∧
    (∀ c ∈ after, Text.isBlank c = true) ∧
    s.toList = before ++ digits.map Nat.digitChar ++ after

theorem mapM_asciiDigit?_eq_some {cs : List Char} {digits : List Nat}
    (h : cs.mapM Text.asciiDigit? = some digits) :
    (∀ d ∈ digits, d < 10) ∧ cs = digits.map Nat.digitChar := by
  induction cs generalizing digits with
  | nil =>
    cases h
    exact ⟨List.forall_mem_nil _, rfl⟩
  | cons c cs ih =>
    simp only [List.mapM_cons, Option.bind_eq_bind, Option.bind_eq_some_iff, Option.pure_def,
      Option.some.injEq] at h
    obtain ⟨d, hd, others, hothers, rfl⟩ := h
    obtain ⟨hlt, rfl⟩ := ih hothers
    refine ⟨List.forall_mem_cons.mpr ⟨Text.asciiDigit?_lt hd, hlt⟩, ?_⟩
    rw [List.map_cons, Integer.digitChar_of_asciiDigit? hd]

theorem wireDigits?_eq_some_iff {cs : List Char} {digits : List Nat} :
    wireDigits? cs = some digits ↔
      digits ≠ [] ∧ (∀ d ∈ digits, d < 10) ∧ cs = digits.map Nat.digitChar := by
  unfold wireDigits?
  constructor
  · intro h
    split at h
    · cases h
    · next hne =>
      obtain ⟨hlt, rfl⟩ := mapM_asciiDigit?_eq_some h
      refine ⟨?_, hlt, rfl⟩
      rintro rfl
      exact hne rfl
  · rintro ⟨hne, hlt, rfl⟩
    rw [if_neg (by simpa using hne)]
    exact Integer.mapM_digitChar fun d hd => Integer.asciiDigit?_digitChar (hlt d hd)

/-- The digits of a text are found by trimming it. -/
theorem isNumeral_iff {s : String} {digits : List Nat} :
    IsNumeral s digits ↔ wireDigits? (Text.trimChars s.toList) = some digits := by
  rw [wireDigits?_eq_some_iff]
  constructor
  · rintro ⟨hne, hlt, before, after, hbefore, hafter, htext⟩
    have hkept : ∀ c ∈ digits.map Nat.digitChar, Text.isBlank c = false := by
      intro c hc
      obtain ⟨d, hd, rfl⟩ := List.mem_map.mp hc
      exact Integer.not_isBlank_digitChar (Nat.lt_trans (hlt d hd) (by decide))
    refine ⟨hne, hlt, ?_⟩
    rw [htext, Text.trimChars, Text.trimBoth_surrounded hbefore hkept hafter]
  · rintro ⟨hne, hlt, htrimmed⟩
    obtain ⟨before, after, hbefore, hafter, htext⟩ := Text.exists_trimBoth Text.isBlank s.toList
    rw [Text.trimChars] at htrimmed
    rw [htrimmed] at htext
    exact ⟨hne, hlt, before, after, hbefore, hafter, htext⟩

theorem isNumeral_of_digits {digits : List Nat} (hne : digits ≠ []) (hlt : ∀ d ∈ digits, d < 10) :
    IsNumeral (String.ofList (digits.map Nat.digitChar)) digits := by
  refine ⟨hne, hlt, [], [], List.forall_mem_nil _, List.forall_mem_nil _, ?_⟩
  rw [String.toList_ofList, List.nil_append, List.append_nil]

section

variable {s : String} {digits : List Nat}

theorem ofText_of_numeral (h : IsNumeral s digits) (hlen : digits.length ≤ Integer.digitLimit) :
    ofText s = ofInt (Integer.ofDigits 10 digits) := by
  simp only [ofText, isNumeral_iff.mp h, if_neg (Nat.not_lt.mpr hlen)]

/-- The limit counts the zeros in front. -/
theorem ofText_of_endless (h : IsNumeral s digits) (hlen : Integer.digitLimit < digits.length) :
    ofText s = .error (.fault .badValue) := by
  simp only [ofText, isNumeral_iff.mp h, if_pos hlen]

theorem ofText_of_not_numeral (h : ∀ digits, ¬IsNumeral s digits) :
    ofText s = .fail (.invalidField "value" (.notDecimal (Text.quoted s))) := by
  have hnone : wireDigits? (Text.trimChars s.toList) = none :=
    Option.eq_none_iff_forall_ne_some.mpr fun digits hdigits => h digits (isNumeral_iff.mpr hdigits)
  simp only [ofText, hnone]

/-- A numeral within the limit denotes an integer with a text. -/
theorem IsNumeral.lt_textBound (h : IsNumeral s digits) (hlen : digits.length ≤ Integer.digitLimit) :
    (Integer.ofDigits 10 digits : Int).natAbs < Integer.textBound := by
  rw [Int.natAbs_natCast]
  unfold Integer.textBound
  exact Nat.lt_of_lt_of_le (Integer.ofDigits_lt h.lt) (Nat.pow_le_pow_right (by decide) hlen)

end

/-! ## The text of an amount -/

theorem wire_eq (a : TokenAmount) : a.wire = String.ofList (Nat.toDigits 10 a.units) := by
  rw [wire, Integer.decimal, decide_eq_false (Int.not_lt.mpr (Int.natCast_nonneg a.units))]
  rfl

/-- Amounts have at most 78 digits. -/
theorem length_digits_le (a : TokenAmount) : (Nat.toDigits 10 a.units).length ≤ 78 :=
  (Nat.length_toDigits_le_iff (by decide) (by decide)).mpr (Nat.lt_trans a.units_lt (by decide))

theorem exists_numeral_wire (a : TokenAmount) : ∃ digits, IsNumeral a.wire digits ∧
    digits.length ≤ Integer.digitLimit ∧ Integer.ofDigits 10 digits = a.units := by
  have hlen := Nat.le_trans (length_digits_le a) (by decide : 78 ≤ Integer.digitLimit)
  obtain ⟨ds, hds, hall, hvalue, hne, -⟩ := Integer.exists_digits (by decide : 1 < 10) a.units
  rw [hds, List.length_map] at hlen
  refine ⟨ds, ?_, hlen, hvalue⟩
  rw [wire_eq, hds]
  exact isNumeral_of_digits hne hall

theorem ofText_wire (a : TokenAmount) : ofText a.wire = .ok a := by
  obtain ⟨digits, hdigits, hlen, hvalue⟩ := exists_numeral_wire a
  rw [ofText_of_numeral hdigits hlen, hvalue, ofInt_units]

/-! ## The law of reading -/

/-- What comes of an integer or a text that is read as an amount. -/
inductive Reads : Value → Result TokenAmount → Prop where
  | int (a : TokenAmount) : Reads (.int a.units) (.ok a)
  | intOutside {n : Int} (hout : n < 0 ∨ 2 ^ 256 ≤ n) (hn : n.natAbs < Integer.textBound) :
      Reads (.int n) (.fail (.outOfRange "value" (Integer.decimal n) 256))
  | intEndless {n : Int} (hn : Integer.textBound ≤ n.natAbs) :
      Reads (.int n) (.error (.fault .badValue))
  | text {s : String} {digits : List Nat} {a : TokenAmount} (hs : IsNumeral s digits)
      (hlen : digits.length ≤ Integer.digitLimit) (ha : Integer.ofDigits 10 digits = a.units) :
      Reads (.text s) (.ok a)
  | textOutside {s : String} {digits : List Nat} (hs : IsNumeral s digits)
      (hlen : digits.length ≤ Integer.digitLimit) (hout : 2 ^ 256 ≤ Integer.ofDigits 10 digits) :
      Reads (.text s)
        (.fail (.outOfRange "value" (Integer.decimal (Integer.ofDigits 10 digits)) 256))
  | textEndless {s : String} {digits : List Nat} (hs : IsNumeral s digits)
      (hlen : Integer.digitLimit < digits.length) : Reads (.text s) (.error (.fault .badValue))
  | unreadable {s : String} (hs : ∀ digits, ¬IsNumeral s digits) :
      Reads (.text s) (.fail (.invalidField "value" (.notDecimal (Text.quoted s))))

theorem reads_ofInt (n : Int) : Reads (.int n) (ofInt n) := by
  by_cases hin : ∃ a : TokenAmount, n = a.units
  · obtain ⟨a, rfl⟩ := hin
    rw [ofInt_units]
    exact .int a
  · have hout : ∀ a : TokenAmount, n ≠ a.units := fun a ha => hin ⟨a, ha⟩
    rcases Nat.lt_or_ge n.natAbs Integer.textBound with hn | hn
    · rw [ofInt_of_shown hout hn]
      exact .intOutside (outside_iff.mp hout) hn
    · rw [ofInt_of_textless hn]
      exact .intEndless hn

theorem reads_ofText (s : String) : Reads (.text s) (ofText s) := by
  by_cases hs : ∃ digits, IsNumeral s digits
  · obtain ⟨digits, hs⟩ := hs
    rcases Nat.lt_or_ge Integer.digitLimit digits.length with hlen | hlen
    · rw [ofText_of_endless hs hlen]
      exact .textEndless hs hlen
    · rw [ofText_of_numeral hs hlen]
      rcases Nat.lt_or_ge (Integer.ofDigits 10 digits) (2 ^ 256) with hlt | hout
      · have hunits : (Integer.ofDigits 10 digits : Int) = (⟨_, hlt⟩ : TokenAmount).units := rfl
        rw [hunits, ofInt_units]
        exact .text hs hlen rfl
      · rw [ofInt_of_shown (outside_iff.mpr (.inr (by exact_mod_cast hout))) (hs.lt_textBound hlen)]
        exact .textOutside hs hlen hout
  · have hnone : ∀ digits, ¬IsNumeral s digits := fun digits h => hs ⟨digits, h⟩
    rw [ofText_of_not_numeral hnone]
    exact .unreadable hnone

/-- Every way of making an amount of an integer obeys one law, and so does every way of making one of a
text; the text of an amount is read as that amount. -/
theorem coerce_settles (n : Int) (s : String) (a : TokenAmount) :
    (coerce (.int n) = ofValue (.int n) ∧ Reads (.int n) (ofValue (.int n))) ∧
    (coerce (.text s) = parse (.text s) ∧ Reads (.text s) (parse (.text s))) ∧
    parse (.text a.wire) = .ok a :=
  ⟨⟨rfl, reads_ofInt n⟩, ⟨rfl, reads_ofText s⟩, ofText_wire a⟩

/-- A numeral of nothing but zeros. -/
def zeros (count : Nat) : String := String.ofList ((List.replicate count 0).map Nat.digitChar)

theorem isNumeral_zeros {count : Nat} (h : 0 < count) :
    IsNumeral (zeros count) (List.replicate count 0) := by
  refine isNumeral_of_digits ?_ fun d hd => ?_
  · rw [Ne, List.replicate_eq_nil_iff]
    exact Nat.ne_of_gt h
  · rw [List.eq_of_mem_replicate hd]
    decide

theorem parse_zeros {count : Nat} (h : Integer.digitLimit < count) :
    parse (.text (zeros count)) = .error (.fault .badValue) :=
  ofText_of_endless (isNumeral_zeros (Nat.zero_lt_of_lt h)) (by rwa [List.length_replicate])

/-- The least integer without a text and the shortest numeral beyond the limit are not refused by an error
about an encoding, and the numeral denotes nothing else than zero. -/
theorem coerce_endless :
    ofValue (.int Integer.textBound) = .error (.fault .badValue) ∧
    IsNumeral (zeros 4301) (List.replicate 4301 0) ∧
    Integer.ofDigits 10 (List.replicate 4301 0) = 0 ∧
    parse (.text (zeros 4301)) = .error (.fault .badValue) :=
  ⟨ofInt_of_textless (Nat.le_refl _), isNumeral_zeros (by decide), Integer.ofDigits_zeros 10 4301,
    parse_zeros (by decide)⟩

end LedgerClient.TokenAmount
