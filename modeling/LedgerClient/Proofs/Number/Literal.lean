import LedgerClient.Proofs.Number.Integer

/-!
# Numerals and literals

A numeral is digits of its base, in any script and with single underscores between them. A literal is a
numeral in base ten that begins with no zero, zeros alone, or a numeral behind a zero and the letter that
announces its base; a sign and blanks may surround it. The readers accept these texts and no others.
-/

namespace LedgerClient

namespace Text

/-- The codes of all blank characters. -/
def blankCodes : List Nat := [9, 10, 11, 12, 13, 28, 29, 30, 31, 32, 0x85, 0xA0, 0x1680, 0x2000, 0x2001,
  0x2002, 0x2003, 0x2004, 0x2005, 0x2006, 0x2007, 0x2008, 0x2009, 0x200A, 0x2028, 0x2029, 0x202F, 0x205F,
  0x3000]

theorem mem_blankCodes {c : Char} (h : isBlank c = true) : c.toNat ∈ blankCodes := by
  have hspace : c = ' ' ↔ c.toNat = 32 := Char.toNat_inj.symm
  simp only [isBlank, isAsciiBlank, isSeparatorBlank, isWideBlank, Bool.or_eq_true, Bool.and_eq_true,
    decide_eq_true_eq, hspace] at h
  simp only [blankCodes, List.mem_cons, List.not_mem_nil, or_false]
  omega

end Text

namespace Integer

/-! ## Digits -/

theorem not_isBlank_of_digitIn? {base d : Nat} {c : Char} (h : digitIn? base c = some d) :
    Text.isBlank c = false := by
  have hall : ∀ n ∈ Text.blankCodes, Text.digitFrom n Text.digitZeros = none ∧
      ¬(97 ≤ n ∧ n ≤ 122) ∧ ¬(65 ≤ n ∧ n ≤ 90) := by decide
  rw [← Bool.not_eq_true]
  intro hblank
  obtain ⟨hdigit, hlower, hupper⟩ := hall c.toNat (Text.mem_blankCodes hblank)
  have hletter : letterDigit? c = none := by
    rw [letterDigit?]
    simp only [if_neg hlower, if_neg hupper]
  have hnone : Text.digit? c = none := hdigit
  rw [digitIn?, hnone, hletter] at h
  cases h

/-- The character can be neither a blank nor a sign. -/
def IsInner (c : Char) : Prop := Text.isBlank c = false ∧ c ≠ '-' ∧ c ≠ '+'

instance (c : Char) : Decidable (IsInner c) := inferInstanceAs (Decidable (_ ∧ _))

theorem IsInner.not_isNumeralBlank {c : Char} (h : IsInner c) : Text.isNumeralBlank c = false := by
  rw [← Bool.not_eq_true]
  intro hblank
  have hkept := h.1
  rw [Text.isBlank_of_isNumeralBlank hblank] at hkept
  cases hkept

theorem isInner_of_digitIn? {base d : Nat} {c : Char} (h : digitIn? base c = some d) : IsInner c := by
  refine ⟨not_isBlank_of_digitIn? h, ?_, ?_⟩
  · rintro rfl
    cases h
  · rintro rfl
    cases h

theorem le_of_letterDigit? {c : Char} {d : Nat} (h : letterDigit? c = some d) : 10 ≤ d := by
  simp only [letterDigit?] at h
  split at h
  · cases h
    omega
  · split at h
    · cases h
      omega
    · cases h

/-- Below ten only decimal digits count. -/
theorem digitIn?_ten (c : Char) : digitIn? 10 c = Text.digit? c := by
  unfold digitIn?
  cases hdigit : Text.digit? c with
  | some d =>
    rw [Option.some_or]
    exact if_pos (Text.digit?_lt hdigit)
  | none =>
    rw [Option.none_or]
    cases hletter : letterDigit? c with
    | none => rfl
    | some d => exact if_neg (Nat.not_lt.mpr (le_of_letterDigit? hletter))

/-- The letters that announce a base. -/
def announcements : List (Char × Nat) :=
  [('x', 16), ('X', 16), ('o', 8), ('O', 8), ('b', 2), ('B', 2)]

theorem announcedBase?_eq_some_iff {c : Char} {base : Nat} :
    announcedBase? c = some base ↔ (c, base) ∈ announcements := by
  constructor
  · intro h
    simp only [announcedBase?, Bool.or_eq_true, decide_eq_true_eq] at h
    split at h
    · next hc =>
      cases h
      rcases hc with rfl | rfl <;> decide
    · split at h
      · next hc =>
        cases h
        rcases hc with rfl | rfl <;> decide
      · split at h
        · next hc =>
          cases h
          rcases hc with rfl | rfl <;> decide
        · cases h
  · have hall : ∀ p ∈ announcements, announcedBase? p.1 = some p.2 := by decide
    exact hall (c, base)

/-- An announcing letter is a digit neither of its base nor of base ten. -/
theorem of_announced {base : Nat} {c : Char} (h : announcedBase? c = some base) :
    base ≠ 10 ∧ digitIn? base c = none ∧ digitIn? 10 c = none ∧ IsInner c := by
  have hall : ∀ p ∈ announcements,
      p.2 ≠ 10 ∧ digitIn? p.2 p.1 = none ∧ digitIn? 10 p.1 = none ∧ IsInner p.1 := by decide
  exact hall (c, base) (announcedBase?_eq_some_iff.mp h)

/-! ## Numerals -/

/-- Digits of a base with single underscores between them. -/
inductive Numeral (base : Nat) : List Char → List Nat → Prop where
  | last {c : Char} {d : Nat} (hc : digitIn? base c = some d) : Numeral base [c] [d]
  | cons {c : Char} {d : Nat} {cs : List Char} {ds : List Nat} (hc : digitIn? base c = some d)
      (hcs : Numeral base cs ds) : Numeral base (c :: cs) (d :: ds)
  | group {c : Char} {d : Nat} {cs : List Char} {ds : List Nat} (hc : digitIn? base c = some d)
      (hcs : Numeral base cs ds) : Numeral base (c :: '_' :: cs) (d :: ds)

/-- What may stand behind a digit. -/
inductive Continues (base : Nat) : List Char → List Nat → Prop where
  | nil : Continues base [] []
  | group {cs : List Char} {ds : List Nat} (h : Numeral base cs ds) : Continues base ('_' :: cs) ds
  | cons {cs : List Char} {ds : List Nat} (h : Numeral base cs ds) : Continues base cs ds

section

variable {base : Nat} {c : Char} {d : Nat} {cs : List Char} {ds : List Nat}

theorem numeral_cons_iff : Numeral base (c :: cs) ds ↔
    ∃ d others, digitIn? base c = some d ∧ Continues base cs others ∧ ds = d :: others := by
  constructor
  · intro h
    cases h with
    | last hc => exact ⟨_, _, hc, .nil, rfl⟩
    | cons hc hcs => exact ⟨_, _, hc, .cons hcs, rfl⟩
    | group hc hcs => exact ⟨_, _, hc, .group hcs, rfl⟩
  · rintro ⟨d, others, hc, hcs, rfl⟩
    cases hcs with
    | nil => exact .last hc
    | group h => exact .group hc h
    | cons h => exact .cons hc h

theorem not_numeral_underscore : ¬Numeral base ('_' :: cs) ds := by
  rw [numeral_cons_iff]
  rintro ⟨d, others, hc, -⟩
  cases hc

theorem continues_underscore_iff : Continues base ('_' :: cs) ds ↔ Numeral base cs ds := by
  constructor
  · intro h
    cases h with
    | group h => exact h
    | cons h => exact absurd h not_numeral_underscore
  · exact .group

theorem continues_cons_iff (hc : c ≠ '_') : Continues base (c :: cs) ds ↔ Numeral base (c :: cs) ds := by
  constructor
  · intro h
    cases h with
    | group => exact absurd rfl hc
    | cons h => exact h
  · exact .cons

theorem scanDigits_cons (afterDigit : Bool) (hc : c ≠ '_') :
    scanDigits base afterDigit (c :: cs) = some ds ↔
      ∃ d others, digitIn? base c = some d ∧ scanDigits base true cs = some others ∧ ds = d :: others := by
  rw [scanDigits, if_neg hc]
  cases digitIn? base c with
  | none =>
    refine iff_of_false (fun h => by cases h) ?_
    rintro ⟨d, others, hd, -⟩
    cases hd
  | some d =>
    simp only [Option.map_eq_some_iff, Option.some.injEq]
    constructor
    · rintro ⟨others, hothers, rfl⟩
      exact ⟨d, others, rfl, hothers, rfl⟩
    · rintro ⟨e, others, rfl, hothers, rfl⟩
      exact ⟨others, hothers, rfl⟩

/-- The scanner accepts the numerals, and behind a digit what may stand there. -/
theorem scanDigits_iff (cs : List Char) :
    (∀ ds, scanDigits base false cs = some ds ↔ Numeral base cs ds) ∧
      ∀ ds, scanDigits base true cs = some ds ↔ Continues base cs ds := by
  induction cs with
  | nil =>
    refine ⟨fun ds => iff_of_false (fun h => by cases h) (fun h => by cases h), fun ds => ?_⟩
    constructor
    · intro h
      cases h
      exact .nil
    · intro h
      cases h with
      | nil => rfl
      | cons h => cases h
  | cons c cs ih =>
    obtain ⟨ihstart, ihafter⟩ := ih
    by_cases hc : c = '_'
    · subst hc
      refine ⟨fun ds => iff_of_false (fun h => by cases h) not_numeral_underscore, fun ds => ?_⟩
      rw [continues_underscore_iff, ← ihstart]
      rfl
    · have hscan : ∀ (afterDigit : Bool) (ds : List Nat),
          scanDigits base afterDigit (c :: cs) = some ds ↔ Numeral base (c :: cs) ds := by
        intro afterDigit ds
        simp only [scanDigits_cons afterDigit hc, numeral_cons_iff, ihafter]
      exact ⟨hscan false, fun ds => (hscan true ds).trans (continues_cons_iff hc).symm⟩

theorem scanDigits_eq_some_iff : scanDigits base false cs = some ds ↔ Numeral base cs ds :=
  (scanDigits_iff cs).1 ds

theorem Numeral.isInner (h : Numeral base cs ds) : ∀ c ∈ cs, IsInner c := by
  induction h with
  | last hc => exact List.forall_mem_singleton.mpr (isInner_of_digitIn? hc)
  | cons hc _ ih => exact List.forall_mem_cons.mpr ⟨isInner_of_digitIn? hc, ih⟩
  | group hc _ ih =>
    exact List.forall_mem_cons.mpr
      ⟨isInner_of_digitIn? hc, List.forall_mem_cons.mpr ⟨by decide, ih⟩⟩

theorem digitIn?_digitChar {d : Nat} (h : d < 16) : digitIn? 16 (Nat.digitChar d) = some d := by
  have hall : ∀ d < 16, digitIn? 16 (Nat.digitChar d) = some d := by decide
  exact hall d h

theorem numeral_digitChar {d : Nat} {ds : List Nat} (h : ∀ e ∈ d :: ds, e < 16) :
    Numeral 16 ((d :: ds).map Nat.digitChar) (d :: ds) := by
  induction ds generalizing d with
  | nil => exact .last (digitIn?_digitChar (h d List.mem_cons_self))
  | cons e ds ih =>
    obtain ⟨hd, hds⟩ := List.forall_mem_cons.mp h
    exact .cons (digitIn?_digitChar hd) (ih hds)

theorem exists_numeral_toDigits (n : Nat) :
    ∃ ds, Numeral 16 (Nat.toDigits 16 n) ds ∧ ofDigits 16 ds = n := by
  obtain ⟨ds, hds, hall, hvalue, hne, -⟩ := exists_digits (by decide : 1 < 16) n
  obtain ⟨d, rest, rfl⟩ := List.exists_cons_of_ne_nil hne
  rw [hds]
  exact ⟨d :: rest, numeral_digitChar hall, hvalue⟩

/-- Behind a digit stands an underscore or a digit. -/
theorem Continues.head (h : Continues base cs ds) {c : Char} (hc : cs.head? = some c) :
    c = '_' ∨ ∃ d, digitIn? base c = some d := by
  cases cs with
  | nil => cases hc
  | cons e rest =>
    obtain rfl : e = c := Option.some.inj hc
    by_cases hmark : e = '_'
    · exact .inl hmark
    · obtain ⟨d, -, hd, -⟩ := numeral_cons_iff.mp ((continues_cons_iff hmark).mp h)
      exact .inr ⟨d, hd⟩

theorem Continues.not_announced (h : Continues base cs ds) {c : Char} (hc : cs.head? = some c) :
    announcedBase? c ≠ some base := by
  intro hannounced
  rcases h.head hc with rfl | ⟨d, hd⟩
  · cases hannounced
  · rw [(of_announced hannounced).2.1] at hd
    cases hd

/-! ## Reading in a base -/

/-- The number of digits within the limit, which holds in base ten only. -/
def numberOf? (base : Nat) (ds : List Nat) : Option Nat :=
  if base = 10 && decide (digitLimit < ds.length) then none else some (ofDigits base ds)

/-- Where no base is announced, all characters are scanned. -/
theorem readDigits_of_bare (h : ∀ z letter rest, cs = z :: letter :: rest →
    announcedBase? letter ≠ some base) :
    readDigits base cs = (scanDigits base false cs).bind (numberOf? base) := by
  rcases cs with _ | ⟨z, _ | ⟨letter, rest⟩⟩
  · rfl
  · unfold readDigits
    dsimp only
    cases scanDigits base false [z] with
    | none => rfl
    | some ds => rfl
  · have hletter : decide (announcedBase? letter = some base) = false :=
      decide_eq_false (h z letter rest rfl)
    unfold readDigits
    simp only [hletter, Bool.and_false, Bool.false_eq_true, if_false]
    cases scanDigits base false (z :: letter :: rest) with
    | none => rfl
    | some ds => rfl

theorem readDigits_of_announced {z letter : Char} {rest : List Char} (hz : isZeroDigit z = true)
    (hletter : announcedBase? letter = some base) :
    readDigits base (z :: letter :: rest) = (scanDigits base false (dropUnderscore rest)).map
      (ofDigits base) := by
  unfold readDigits
  simp only [hz, hletter, decide_true, Bool.and_true, if_true,
    decide_eq_false (of_announced hletter).1, Bool.false_and,
    Bool.false_eq_true, if_false]
  cases scanDigits base false (dropUnderscore rest) with
  | none => rfl
  | some ds => rfl

theorem readDigits_of_numeral (h : Numeral base cs ds) (hlimit : base = 10 → ds.length ≤ digitLimit) :
    readDigits base cs = some (ofDigits base ds) := by
  have hbare : ∀ z letter rest, cs = z :: letter :: rest → announcedBase? letter ≠ some base := by
    rintro z letter rest rfl
    obtain ⟨d, others, -, hcontinues, -⟩ := numeral_cons_iff.mp h
    exact hcontinues.not_announced rfl
  rw [readDigits_of_bare hbare, scanDigits_eq_some_iff.mpr h, Option.bind_some]
  refine if_neg ?_
  simpa only [Bool.and_eq_true, decide_eq_true_eq, not_and, Nat.not_lt] using hlimit

/-- A decimal numeral beyond the limit is not read. -/
theorem readDigits_ten_eq_some_iff {n : Nat} : readDigits 10 cs = some n ↔
    ∃ ds, Numeral 10 cs ds ∧ ds.length ≤ digitLimit ∧ ofDigits 10 ds = n := by
  constructor
  · intro h
    rw [readDigits_of_bare fun _ _ _ _ hten => (of_announced hten).1 rfl] at h
    obtain ⟨ds, hscan, hnumber⟩ := Option.bind_eq_some_iff.mp h
    unfold numberOf? at hnumber
    split at hnumber
    · cases hnumber
    · next hlen =>
      refine ⟨ds, scanDigits_eq_some_iff.mp hscan, ?_, Option.some.inj hnumber⟩
      simpa using hlen
  · rintro ⟨ds, hds, hlen, rfl⟩
    exact readDigits_of_numeral hds fun _ => hlen

theorem scanDigits_dropUnderscore : scanDigits base false (dropUnderscore cs) = some ds ↔
    ∃ body, (cs = body ∨ cs = '_' :: body) ∧ Numeral base body ds := by
  rw [scanDigits_eq_some_iff]
  unfold dropUnderscore
  split
  · next body =>
    constructor
    · intro h
      exact ⟨body, .inr rfl, h⟩
    · rintro ⟨body', rfl | heq, h⟩
      · exact absurd h not_numeral_underscore
      · cases heq
        exact h
  · next hmark =>
    constructor
    · intro h
      exact ⟨cs, .inl rfl, h⟩
    · rintro ⟨body, rfl | rfl, h⟩
      · exact h
      · exact absurd rfl (hmark body)

/-! ## Literals -/

theorem isZeroDigit_iff {z : Char} : isZeroDigit z = true ↔ digitIn? 10 z = some 0 := by
  rw [isZeroDigit, decide_eq_true_eq, digitIn?_ten]

/-- The digits of a literal without a sign and the number that they denote. -/
inductive Magnitude : List Char → Nat → Prop where
  | decimal {cs : List Char} {ds : List Nat} (hcs : Numeral 10 cs ds) (hlen : ds.length ≤ digitLimit)
      (hfirst : ds.head? ≠ some 0) : Magnitude cs (ofDigits 10 ds)
  | zero {cs : List Char} {ds : List Nat} (hcs : Numeral 10 cs ds) (hlen : ds.length ≤ digitLimit)
      (hzero : ∀ d ∈ ds, d = 0) : Magnitude cs 0
  | announced {z letter : Char} {base : Nat} {rest body : List Char} {ds : List Nat}
      (hz : Text.digit? z = some 0) (hletter : (letter, base) ∈ announcements)
      (hrest : rest = body ∨ rest = '_' :: body) (hbody : Numeral base body ds) :
      Magnitude (z :: letter :: rest) (ofDigits base ds)

theorem foldl_eq_zero {ds : List Nat} {n : Nat} (h : ds.foldl (fun n d => 10 * n + d) n = 0) :
    n = 0 ∧ ∀ d ∈ ds, d = 0 := by
  induction ds generalizing n with
  | nil => exact ⟨h, List.forall_mem_nil _⟩
  | cons d ds ih =>
    obtain ⟨hsum, hrest⟩ := ih (n := 10 * n + d) h
    exact ⟨by omega, List.forall_mem_cons.mpr ⟨by omega, hrest⟩⟩

theorem ofDigits_eq_zero_iff {ds : List Nat} : ofDigits 10 ds = 0 ↔ ∀ d ∈ ds, d = 0 := by
  constructor
  · intro h
    exact (foldl_eq_zero h).2
  · intro h
    rw [List.eq_replicate_of_mem h]
    exact ofDigits_zeros 10 _

theorem magnitude_of_readLiteralDigits {n : Nat} (h : readLiteralDigits cs = some n) :
    Magnitude cs n := by
  unfold readLiteralDigits at h
  split at h
  · next z rest =>
    split at h
    · next hz =>
      split at h
      · next base hannounced =>
        obtain ⟨letter, hhead, hletter⟩ := Option.bind_eq_some_iff.mp hannounced
        obtain ⟨rest, rfl⟩ := List.head?_eq_some_iff.mp hhead
        rw [readDigits_of_announced hz hletter] at h
        obtain ⟨ds, hscan, rfl⟩ := Option.map_eq_some_iff.mp h
        obtain ⟨body, hrest, hbody⟩ := scanDigits_dropUnderscore.mp hscan
        exact .announced (of_decide_eq_true hz) (announcedBase?_eq_some_iff.mp hletter) hrest hbody
      · obtain ⟨hread, hzero⟩ := Option.filter_eq_some_iff.mp h
        obtain ⟨ds, hds, hlen, hvalue⟩ := readDigits_ten_eq_some_iff.mp hread
        obtain rfl : n = 0 := by simpa using hzero
        exact .zero hds hlen (ofDigits_eq_zero_iff.mp hvalue)
    · next hz =>
      obtain ⟨ds, hds, hlen, rfl⟩ := readDigits_ten_eq_some_iff.mp h
      refine .decimal hds hlen ?_
      obtain ⟨d, others, hd, -, rfl⟩ := numeral_cons_iff.mp hds
      intro hfirst
      obtain rfl : d = 0 := Option.some.inj hfirst
      exact hz (isZeroDigit_iff.mpr hd)
  · cases h

theorem readLiteralDigits_of_decimal (hcs : Numeral 10 cs ds) (hlen : ds.length ≤ digitLimit)
    (hfirst : ds.head? ≠ some 0) : readLiteralDigits cs = some (ofDigits 10 ds) := by
  have hread := readDigits_of_numeral hcs fun _ => hlen
  match cs, hcs with
  | z :: rest, hcs =>
    obtain ⟨d, others, hd, -, rfl⟩ := numeral_cons_iff.mp hcs
    have hz : ¬isZeroDigit z = true := by
      intro hz
      rw [isZeroDigit_iff.mp hz] at hd
      obtain rfl : 0 = d := Option.some.inj hd
      exact hfirst rfl
    rw [readLiteralDigits, if_neg hz, hread]

/-- What follows a zero in a decimal numeral announces no base at all. -/
theorem readLiteralDigits_of_zeros (hcs : Numeral 10 cs ds) (hlen : ds.length ≤ digitLimit)
    (hzero : ∀ d ∈ ds, d = 0) : readLiteralDigits cs = some 0 := by
  have hread := readDigits_of_numeral hcs fun _ => hlen
  rw [ofDigits_eq_zero_iff.mpr hzero] at hread
  match cs, hcs with
  | z :: rest, hcs =>
    obtain ⟨d, others, hd, hrest, rfl⟩ := numeral_cons_iff.mp hcs
    obtain rfl : d = 0 := hzero d List.mem_cons_self
    have hnone : rest.head?.bind announcedBase? = none := by
      rw [Option.bind_eq_none_iff]
      intro letter hletter
      rw [Option.eq_none_iff_forall_ne_some]
      intro base hannounced
      rcases hrest.head hletter with rfl | ⟨e, he⟩
      · cases hannounced
      · rw [(of_announced hannounced).2.2.1] at he
        cases he
    rw [readLiteralDigits, if_pos (isZeroDigit_iff.mpr hd), hnone]
    simp only [hread]
    rfl

/-- The digits of a literal are read as its number, and nothing else is. -/
theorem readLiteralDigits_eq_some_iff {n : Nat} : readLiteralDigits cs = some n ↔ Magnitude cs n := by
  refine ⟨magnitude_of_readLiteralDigits, fun h => ?_⟩
  cases h with
  | decimal hcs hlen hfirst => exact readLiteralDigits_of_decimal hcs hlen hfirst
  | zero hcs hlen hzero => exact readLiteralDigits_of_zeros hcs hlen hzero
  | @announced z letter base rest body ds hz hletter hrest hbody =>
    have hz : isZeroDigit z = true := decide_eq_true hz
    have hletter : announcedBase? letter = some base := announcedBase?_eq_some_iff.mpr hletter
    have hannounced : (letter :: rest).head?.bind announcedBase? = some base := hletter
    rw [readLiteralDigits, if_pos hz, hannounced]
    simp only [readDigits_of_announced hz hletter]
    exact congrArg (Option.map (ofDigits base)) (scanDigits_dropUnderscore.mpr ⟨body, hrest, hbody⟩)

theorem Magnitude.isInner {n : Nat} (h : Magnitude cs n) : ∀ c ∈ cs, IsInner c := by
  cases h with
  | decimal hcs => exact hcs.isInner
  | zero hcs => exact hcs.isInner
  | @announced z letter base rest body ds hz hletter hrest hbody =>
    have hzero : digitIn? 10 z = some 0 := (digitIn?_ten z).trans hz
    have hafter : ∀ c ∈ rest, IsInner c := by
      rcases hrest with rfl | rfl
      · exact hbody.isInner
      · exact List.forall_mem_cons.mpr ⟨by decide, hbody.isInner⟩
    exact List.forall_mem_cons.mpr ⟨isInner_of_digitIn? hzero, List.forall_mem_cons.mpr
      ⟨(of_announced (announcedBase?_eq_some_iff.mpr hletter)).2.2.2, hafter⟩⟩

end

/-! ## Signs and blanks -/

/-- A text with a sign or none and blanks around it, of which the rest denotes a number. -/
inductive Signed (P : List Char → Nat → Prop) : List Char → Int → Prop where
  | positive {before sign body after : List Char} {n : Nat}
      (hbefore : ∀ c ∈ before, Text.isNumeralBlank c = true) (hsign : sign = [] ∨ sign = ['+'])
      (hbody : P body n) (hafter : ∀ c ∈ after, Text.isNumeralBlank c = true) :
      Signed P (before ++ (sign ++ body) ++ after) n
  | negative {before body after : List Char} {n : Nat}
      (hbefore : ∀ c ∈ before, Text.isNumeralBlank c = true) (hbody : P body n)
      (hafter : ∀ c ∈ after, Text.isNumeralBlank c = true) :
      Signed P (before ++ ('-' :: body) ++ after) (-n)

section

variable {read : List Char → Option Nat} {P : List Char → Nat → Prop}

theorem map_negated (x : Option Nat) :
    ((x.map fun n => -(n : Int)) : Option Int) = x.map fun n : Nat => -(n : Int) := by
  cases x with
  | none => rfl
  | some n => rfl

theorem signed_of_readSigned (hread : ∀ {cs n}, read cs = some n → P cs n) {s : String}
    {n : Int} (h : readSigned read s = some n) : Signed P s.toList n := by
  obtain ⟨before, after, hbefore, hafter, htext⟩ :=
    Text.exists_trimBoth Text.isNumeralBlank s.toList
  unfold readSigned at h
  simp only [map_negated] at h
  generalize Text.trimBoth Text.isNumeralBlank s.toList = trimmed at h htext
  rw [htext]
  split at h
  · obtain ⟨m, hm, rfl⟩ := Option.map_eq_some_iff.mp h
    exact .negative hbefore (hread hm) hafter
  · obtain ⟨m, hm, rfl⟩ := Option.map_eq_some_iff.mp h
    exact .positive hbefore (.inr rfl) (hread hm) hafter
  · obtain ⟨m, hm, rfl⟩ := Option.map_eq_some_iff.mp h
    exact .positive hbefore (.inl rfl) (hread hm) hafter

/-- Blanks and signs are told apart from what they surround. -/
theorem readSigned_of_signed (hread : ∀ {cs n}, P cs n → read cs = some n)
    (hinner : ∀ {cs n}, P cs n → ∀ c ∈ cs, IsInner c) {s : String} {n : Int}
    (h : Signed P s.toList n) : readSigned read s = some n := by
  have hkept : ∀ {body m}, P body m → ∀ c ∈ body, Text.isNumeralBlank c = false :=
    fun hbody c hc => (hinner hbody c hc).not_isNumeralBlank
  have hsigned : ∀ sign, Text.isNumeralBlank sign = false → ∀ {body m}, P body m →
      ∀ c ∈ sign :: body, Text.isNumeralBlank c = false :=
    fun _ hsign {_ _} hbody => List.forall_mem_cons.mpr ⟨hsign, hkept hbody⟩
  unfold readSigned
  simp only [map_negated]
  generalize s.toList = cs at h
  cases h with
  | negative hbefore hbody hafter =>
    rw [Text.trimBoth_surrounded hbefore (hsigned '-' rfl hbody) hafter]
    simp only [hread hbody, Option.map_some]
  | positive hbefore hsign hbody hafter =>
    rcases hsign with rfl | rfl
    · rw [List.nil_append, Text.trimBoth_surrounded hbefore (hkept hbody) hafter]
      split
      · exact absurd rfl (hinner hbody '-' List.mem_cons_self).2.1
      · exact absurd rfl (hinner hbody '+' List.mem_cons_self).2.2
      · exact congrArg (Option.map Int.ofNat) (hread hbody)
    · rw [List.singleton_append,
        Text.trimBoth_surrounded hbefore (hsigned '+' rfl hbody) hafter]
      exact congrArg (Option.map Int.ofNat) (hread hbody)

end

/-- A numeral alone is read in its base. -/
theorem read?_of_numeral {base : Nat} {cs : List Char} {ds : List Nat} (h : Numeral base cs ds)
    (hlimit : base = 10 → ds.length ≤ digitLimit) :
    read? base (String.ofList cs) = some (ofDigits base ds : Int) := by
  refine readSigned_of_signed (P := fun body n => body = cs ∧ n = ofDigits base ds) ?_ ?_ ?_
  · rintro body n ⟨rfl, rfl⟩
    exact readDigits_of_numeral h hlimit
  · rintro body n ⟨rfl, -⟩
    exact h.isInner
  · have halone : (String.ofList cs).toList = [] ++ ([] ++ cs) ++ [] := by
      rw [String.toList_ofList, List.append_nil, List.nil_append, List.nil_append]
    rw [halone]
    exact .positive (List.forall_mem_nil _) (.inl rfl) ⟨rfl, rfl⟩ (List.forall_mem_nil _)

/-- The text is a literal of this integer. -/
def IsLiteral (s : String) (n : Int) : Prop := Signed Magnitude s.toList n

theorem readLiteral?_eq_some_iff {s : String} {n : Int} : readLiteral? s = some n ↔ IsLiteral s n :=
  ⟨signed_of_readSigned readLiteralDigits_eq_some_iff.mp,
    readSigned_of_signed (P := Magnitude) readLiteralDigits_eq_some_iff.mpr Magnitude.isInner⟩

end Integer
end LedgerClient
