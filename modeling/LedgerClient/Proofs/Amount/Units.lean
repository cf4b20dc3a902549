import LedgerClient.Proofs.Amount
import LedgerClient.Proofs.Number.Numeral

/-!
# Amounts of whole tokens

A number of whole tokens is scaled by a power of ten within a format of 160 digits and is accepted when the
result is an integer in range. Scaling rounds: an amount is returned exactly when the scaled number is
rounded to it. An integer in range has few enough digits never to be changed, so none is missed, and a
number of at most 160 digits is accepted only when it is an amount exactly.
-/

namespace LedgerClient

namespace TokenAmount

open Decimal (Format)

/-! ## What an amount of whole tokens denotes -/

/-- The number of whole tokens is given as a decimal, an integer or a text. -/
inductive IsUnits : Value → Prop where
  | decimal (d : Decimal) : IsUnits (.decimal d)
  | int (n : ℤ) : IsUnits (.int n)
  | text (s : String) : IsUnits (.text s)

/-- The decimal that stands for an amount: an integer needs a text for it, a text has to be a numeral. -/
inductive Stands : Value → Decimal → Prop where
  | decimal (d : Decimal) : Stands (.decimal d) d
  | int {n : ℤ} (h : n.natAbs < Integer.textBound) : Stands (.int n) (.ofInt n)
  | text {s : String} {d : Decimal} (h : Decimal.read? s = some d) : Stands (.text s) d

theorem decimalOf_int (n : ℤ) :
    decimalOf (.int n) = Result.ofFault (Value.display (.int n)) >>= fun s =>
      match Decimal.read? s with
      | some d => .ok d
      | none => Result.failShowing (.int n) fun shown => .invalidField "value" (.notNumber shown) := rfl

theorem decimalOf_text (s : String) :
    decimalOf (.text s) = match Decimal.read? s with
      | some d => .ok d
      | none => .fail (.invalidField "value" (.notNumber (Text.quoted s))) := rfl

theorem decimalOf_of_stands {amount : Value} {d : Decimal} (h : Stands amount d) :
    decimalOf amount = .ok d := by
  cases h with
  | decimal => rfl
  | @int n h =>
    have hdisplay : Value.display (.int n) = .ok (Integer.decimal n) := Value.integerText_of_lt h
    have hread := Decimal.read?_decimal h
    rw [decimalOf_int, hdisplay, Result.ofFault_ok]
    simp only [bind, Except.bind, hread]
  | text h => rw [decimalOf_text, h]

/-- An amount for which a decimal stands can be shown. -/
theorem exists_shown_of_stands {amount : Value} {d : Decimal} (h : Stands amount d) (full : Bool) :
    ∃ s, amount.shown full = .ok s := by
  cases h with
  | decimal => exact ⟨_, rfl⟩
  | int h => exact ⟨_, Value.integerText_of_lt h⟩
  | text => exact ⟨_, rfl⟩

/-- The amount denotes `x` whole tokens. -/
def Denotes (amount : Value) (x : ℚ) : Prop :=
  ∃ d, Stands amount d ∧ d.isFinite = true ∧ d.value = x

/-- The greatest power of ten by which a number can be scaled. -/
def reach : ℕ := 2000318

theorem reaches_units {p : ℤ} : Decimal.reaches .units p = true ↔ p.natAbs ≤ reach := by
  have hbound : 2 * (Format.units.maxPower + Format.units.precision) = (reach : ℤ) := by decide
  rw [Decimal.reaches, decide_eq_true_eq, hbound]
  omega

theorem lt_textBound_of_reach {p : ℤ} (h : p.natAbs ≤ reach) : p.natAbs < Integer.textBound :=
  Integer.lt_textBound (lt_of_le_of_lt h (by decide))

/-- The bound beyond which a number overflows. -/
def ceiling : ℚ := 10 ^ (Format.units.maxPower + 1)

/-! ## The outcome -/

/-- What comes of the number to which the scaled amount is rounded. -/
inductive Taken (amount : Value) (p : ℤ) (y : ℚ) : Result TokenAmount → Prop where
  | overflow (h : ceiling ≤ |y|) : Taken amount p y (.error (.fault (.ofSignal .overflow)))
  | fraction {shown : String} (hlt : |y| < ceiling) (h : ∀ n : ℤ, y ≠ n)
      (hshown : amount.display = .ok shown) :
      Taken amount p y (.fail (.invalidField "value" (.tooPrecise shown (Integer.decimal p))))
  | returned {a : TokenAmount} (h : y = a.units) : Taken amount p y (.ok a)
  | outside {n : ℤ} (hlt : |y| < ceiling) (h : y = n) (hout : ∀ a : TokenAmount, n ≠ a.units)
      (hn : n.natAbs < Integer.textBound) :
      Taken amount p y (.fail (.outOfRange "value" (Integer.decimal n) 256))
  | endless {n : ℤ} (hlt : |y| < ceiling) (h : y = n) (hn : Integer.textBound ≤ n.natAbs) :
      Taken amount p y (.error (.fault .badValue))

/-- What comes of an amount and a number of places. -/
inductive UnitsOutcome (amount : Value) (p : ℤ) : Result TokenAmount → Prop where
  | textless {n : ℤ} (h : amount = .int n) (hn : Integer.textBound ≤ n.natAbs) :
      UnitsOutcome amount p (.error (.fault .badValue))
  | unreadable {s : String} (h : amount = .text s) (hs : Decimal.read? s = none) :
      UnitsOutcome amount p (.fail (.invalidField "value" (.notNumber (Text.quoted s))))
  | undefined {d : Decimal} {shown : String} (h : Stands amount d) (hd : d.isFinite = false)
      (hshown : amount.detailed = .ok shown) :
      UnitsOutcome amount p (.fail (.invalidField "value" (.notFinite shown)))
  | unreachable {x : ℚ} (h : Denotes amount x) (hp : reach < p.natAbs) :
      UnitsOutcome amount p (.error (.fault (.ofSignal .invalidOperation)))
  | taken {x y : ℚ} {r : Result TokenAmount} (h : Denotes amount x) (hp : p.natAbs ≤ reach)
      (hy : Format.units.Rounds (x * 10 ^ p) y) (hr : Taken amount p y r) : UnitsOutcome amount p r

theorem fromUnits_of_stands {amount : Value} {d : Decimal} (h : Stands amount d) (p : ℤ) :
    fromUnits amount (.int p) =
      if !d.isFinite then
        Result.failShowing amount fun shown => .invalidField "value" (.notFinite shown)
      else scaled d p >>= fun raw =>
        if raw.isIntegral then ofInt raw.truncate
        else Result.ofFault amount.display >>= fun shown =>
          Result.failDisplaying (.int p) fun n => .invalidField "value" (.tooPrecise shown n) := by
  rw [fromUnits, decimalOf_of_stands h]
  rfl

theorem fromUnits_of_scaled {amount : Value} {d raw : Decimal} {p : ℤ} (h : Stands amount d)
    (hd : d.isFinite = true) (hraw : d.scale Format.units p = .ok raw) :
    fromUnits amount (.int p) =
      if raw.isIntegral then ofInt raw.truncate
      else Result.ofFault amount.display >>= fun shown =>
        Result.failDisplaying (.int p) fun n => .invalidField "value" (.tooPrecise shown n) := by
  rw [fromUnits_of_stands h, hd, Bool.not_true, if_neg Bool.false_ne_true, scaled, hraw]
  rfl

theorem taken_of_integer {amount : Value} {p n : ℤ} {y : ℚ} (hlt : |y| < ceiling) (h : y = n) :
    Taken amount p y (ofInt n) := by
  by_cases ha : ∃ a : TokenAmount, n = a.units
  · obtain ⟨a, rfl⟩ := ha
    rw [ofInt_units]
    exact .returned (by rw [h, Int.cast_natCast])
  · have hout : ∀ a : TokenAmount, n ≠ a.units := fun a hn => ha ⟨a, hn⟩
    rcases Nat.lt_or_ge n.natAbs Integer.textBound with hn | hn
    · rw [ofInt_of_shown hout hn]
      exact .outside hlt h hout hn
    · rw [ofInt_of_textless hn]
      exact .endless hlt h hn

/-- A number within reach is scaled, rounded once and taken. -/
theorem taken_fromUnits {amount : Value} {d : Decimal} (h : Stands amount d) (hd : d.isFinite = true)
    {p : ℤ} (hp : p.natAbs ≤ reach) :
    ∃ y, Format.units.Rounds (d.value * 10 ^ p) y ∧ Taken amount p y (fromUnits amount (.int p)) := by
  obtain ⟨y, hy, hfits⟩ := Decimal.scale_rounds Decimal.Format.isProper_units hd (reaches_units.mpr hp)
  refine ⟨y, hy, ?_⟩
  generalize hscale : d.scale Format.units p = fitted at hfits
  cases hfits with
  | overflow hlarge =>
    rw [fromUnits_of_stands h, hd, Bool.not_true, if_neg Bool.false_ne_true, scaled, hscale]
    exact .overflow hlarge
  | @finite negative c e hlt hvalue =>
    rw [fromUnits_of_scaled h hd hscale]
    split
    · next hintegral =>
      refine taken_of_integer hlt ?_
      rw [← hvalue]
      exact Decimal.value_of_isIntegral hintegral
    · next hfraction =>
      obtain ⟨shown, hshown⟩ := exists_shown_of_stands h false
      have hdisplay : amount.display = .ok shown := hshown
      have hplaces : Value.display (.int p) = .ok (Integer.decimal p) :=
        Value.integerText_of_lt (lt_textBound_of_reach hp)
      rw [hdisplay]
      show Taken amount p y (Result.failDisplaying (.int p) _)
      rw [Result.failDisplaying, hplaces]
      refine .fraction hlt (fun n hn => hfraction ?_) hdisplay
      exact Decimal.isIntegral_of_value (hvalue.trans hn)

theorem unitsOutcome_of_stands {amount : Value} {d : Decimal} (h : Stands amount d) (p : ℤ) :
    UnitsOutcome amount p (fromUnits amount (.int p)) := by
  cases hd : d.isFinite with
  | false =>
    obtain ⟨shown, hshown⟩ := exists_shown_of_stands h true
    have hdetailed : amount.detailed = .ok shown := hshown
    rw [fromUnits_of_stands h, hd, Bool.not_false, if_pos rfl, Result.failShowing, hdetailed]
    exact .undefined h hd hdetailed
  | true =>
    rcases Nat.lt_or_ge reach p.natAbs with hp | hp
    · have hreaches : Decimal.reaches .units p = false :=
        Bool.eq_false_iff.mpr fun hreaches => Nat.not_le.mpr hp (reaches_units.mp hreaches)
      rw [fromUnits_of_stands h, hd, Bool.not_true, if_neg Bool.false_ne_true, scaled,
        Decimal.scale_of_unreachable hd hreaches]
      exact .unreachable ⟨d, h, hd, rfl⟩ hp
    · obtain ⟨y, hy, htaken⟩ := taken_fromUnits h hd hp
      exact .taken ⟨d, h, hd, rfl⟩ hp hy htaken

theorem unitsOutcome_fromUnits {amount : Value} (h : IsUnits amount) (p : ℤ) :
    UnitsOutcome amount p (fromUnits amount (.int p)) := by
  cases h with
  | decimal d => exact unitsOutcome_of_stands (.decimal d) p
  | int n =>
    rcases Nat.lt_or_ge n.natAbs Integer.textBound with hn | hn
    · exact unitsOutcome_of_stands (.int hn) p
    · have hdisplay : Value.display (.int n) = .error .badValue := Value.integerText_of_le hn
      rw [fromUnits, decimalOf_int, hdisplay]
      exact .textless rfl hn
  | text s =>
    cases hs : Decimal.read? s with
    | some d => exact unitsOutcome_of_stands (.text hs) p
    | none =>
      rw [fromUnits, decimalOf_text, hs]
      exact .unreadable rfl hs

/-! ## Amounts and what is rounded to them -/

theorem Taken.eq_units {amount : Value} {p : ℤ} {y : ℚ} {a : TokenAmount}
    (h : Taken amount p y (.ok a)) : y = a.units := by
  generalize hr : (.ok a : Result TokenAmount) = r at h
  cases h with
  | returned ha =>
    cases hr
    exact ha
  | overflow => cases hr
  | fraction => cases hr
  | outside => cases hr
  | endless => cases hr

theorem textBound_eq : (Integer.textBound : ℚ) = 10 ^ (Integer.digitLimit : ℤ) := by
  unfold Integer.textBound
  rw [Nat.cast_pow, Nat.cast_ofNat, zpow_natCast]

theorem textBound_le_ceiling : (Integer.textBound : ℚ) ≤ ceiling := by
  rw [textBound_eq, ceiling, Decimal.ten_pow_le]
  decide

theorem units_lt_textBound (a : TokenAmount) : |(a.units : ℚ)| < Integer.textBound := by
  rw [Nat.abs_cast]
  exact_mod_cast Integer.lt_textBound a.units_lt

/-- An amount is taken as it is. -/
theorem Taken.eq_ok {amount : Value} {p : ℤ} {a : TokenAmount} {r : Result TokenAmount}
    (h : Taken amount p a.units r) : r = .ok a := by
  cases h with
  -- An amount is below the bound on texts, and that bound is below the ceiling.
  | overflow hlarge =>
    exact absurd (hlarge.trans_lt (units_lt_textBound a)) (not_lt.mpr textBound_le_ceiling)
  | fraction _ hno => exact absurd (Int.cast_natCast a.units).symm (hno a.units)
  | @returned b hb =>
    have hunits : a.units = b.units := Nat.cast_injective hb
    rw [TokenAmount.ext hunits]
  | @outside n _ hn hout =>
    have hunits : (a.units : ℤ) = n := by exact_mod_cast hn
    exact absurd hunits.symm (hout a)
  | @endless n _ hn hlarge =>
    have hunits : (a.units : ℤ) = n := by exact_mod_cast hn
    rw [← hunits, Int.natAbs_natCast] at hlarge
    exact absurd (Integer.lt_textBound a.units_lt) (Nat.not_lt.mpr hlarge)

/-- Within the bound on texts a number that is no amount is refused by name. -/
theorem Taken.failsOnly {amount : Value} {p : ℤ} {y : ℚ} {r : Result TokenAmount}
    (h : Taken amount p y r) (hy : |y| < Integer.textBound) : FailsOnly Failure.IsEncoding r := by
  cases h with
  | overflow hlarge => exact absurd (hlarge.trans_lt hy) (not_lt.mpr textBound_le_ceiling)
  | fraction => exact failsOnly_encoding _
  | returned => exact .ok _
  | outside => exact failsOnly_encoding _
  | @endless n _ hn hlarge =>
    rw [hn, ← Int.cast_abs, Int.abs_eq_natAbs] at hy
    exact absurd (by exact_mod_cast hy : n.natAbs < Integer.textBound) (Nat.not_lt.mpr hlarge)

/-- The scaled number has no more digits than the format keeps. -/
def IsKept (x : ℚ) (p : ℤ) : Prop :=
  ∃ m k : ℤ, x = m * 10 ^ k ∧ |(m : ℚ)| < 10 ^ Format.units.precision ∧ Format.units.tiny ≤ k + p

theorem eq_of_isKept {x y : ℚ} {p : ℤ} (h : IsKept x p) (hy : Format.units.Rounds (x * 10 ^ p) y) :
    y = x * 10 ^ p := by
  obtain ⟨m, k, hx, hm, hk⟩ := h
  refine hy.eq_of_multiple ?_ hm hk
  rw [hx, Decimal.ten_pow_add, mul_assoc]

/-- An amount has fewer digits than the format keeps. -/
theorem isKept_of_units {x : ℚ} {p : ℤ} {a : TokenAmount} (h : x * 10 ^ p = a.units) : IsKept x p := by
  refine ⟨a.units, -p, ?_, ?_, ?_⟩
  · rw [Int.cast_natCast, ← h, mul_assoc, ← Decimal.ten_pow_add, add_neg_cancel, zpow_zero, mul_one]
  · rw [Int.cast_natCast, Nat.abs_cast]
    exact_mod_cast a.units_lt.trans (by decide : 2 ^ 256 < 10 ^ Format.units.precision)
  · rw [neg_add_cancel]
    decide

/-- A number that is rounded to an amount differs from it far beyond the point. -/
theorem abs_sub_units_le {x : ℚ} {a : TokenAmount} (h : Format.units.Rounds x a.units) :
    |x - a.units| ≤ 10 ^ (-82 : ℤ) / 2 := by
  obtain ⟨place, hle, hplace⟩ := h.abs_sub_le Decimal.Format.isProper_units
  -- An amount has at most 78 digits before the point, so 82 of the 160 that are kept stand behind it.
  have hbound : place ≤ -82 := by
    rcases hplace with htiny | hlow
    · rw [htiny]
      decide
    · have hunits : |(a.units : ℚ)| < 10 ^ (78 : ℤ) := by
        rw [Nat.abs_cast]
        exact_mod_cast a.units_lt.trans (by decide : 2 ^ 256 < 10 ^ 78)
      have hpow := Decimal.ten_pow_lt.mp (hlow.trans_lt hunits)
      have hprecision : (Format.units.precision : ℤ) = 160 := rfl
      omega
  calc |x - a.units| ≤ 10 ^ place / 2 := hle
    _ ≤ 10 ^ (-82 : ℤ) / 2 := div_le_div_of_nonneg_right (Decimal.ten_pow_le.mpr hbound) zero_le_two

/-! ## The result -/

/-- The outcome of scaling any amount by any number of places. An amount is returned exactly when the
scaled number is rounded to it: always when the scaled number is that amount, and never for another
number that has no more digits than the format keeps. -/
theorem fromUnits_settles {amount : Value} (h : IsUnits amount) (p : ℤ) :
    UnitsOutcome amount p (fromUnits amount (.int p)) ∧
      ∀ x, Denotes amount x → p.natAbs ≤ reach →
        (∀ a : TokenAmount, fromUnits amount (.int p) = .ok a ↔
          Format.units.Rounds (x * 10 ^ p) a.units) ∧
        (∀ a : TokenAmount, x * 10 ^ p = a.units → fromUnits amount (.int p) = .ok a) ∧
        (∀ a : TokenAmount, fromUnits amount (.int p) = .ok a →
          |x * 10 ^ p - a.units| ≤ 10 ^ (-82 : ℤ) / 2) ∧
        (IsKept x p →
          (∀ a : TokenAmount, fromUnits amount (.int p) = .ok a ↔ x * 10 ^ p = a.units) ∧
          (|x * 10 ^ p| < Integer.textBound →
            FailsOnly Failure.IsEncoding (fromUnits amount (.int p)))) := by
  refine ⟨unitsOutcome_fromUnits h p, ?_⟩
  rintro x ⟨d, hstands, hd, rfl⟩ hp
  obtain ⟨y, hy, htaken⟩ := taken_fromUnits hstands hd hp
  have hrounds (a : TokenAmount) : fromUnits amount (.int p) = .ok a ↔
      Format.units.Rounds (d.value * 10 ^ p) a.units := by
    constructor
    · intro hok
      rw [hok] at htaken
      rwa [← htaken.eq_units]
    · intro ha
      rw [hy.unique ha] at htaken
      exact htaken.eq_ok
  have hexact (hkept : IsKept d.value p) (a : TokenAmount) :
      fromUnits amount (.int p) = .ok a ↔ d.value * 10 ^ p = a.units := by
    have hvalue := eq_of_isKept hkept hy
    constructor
    · intro hok
      rw [hok] at htaken
      rw [← hvalue, htaken.eq_units]
    · intro ha
      have hunits : y = a.units := hvalue.trans ha
      rw [hunits] at hy
      exact (hrounds a).mpr hy
  refine ⟨hrounds, fun a ha => (hexact (isKept_of_units ha) a).mpr ha,
    fun a hok => abs_sub_units_le ((hrounds a).mp hok), fun hkept => ⟨hexact hkept, fun hbound => ?_⟩⟩
  rw [← eq_of_isKept hkept hy] at hbound
  exact htaken.failsOnly hbound

/-- One and a half tokens are an amount with six places and are refused without any. -/
theorem fromUnits_oneAndAHalf : Denotes (.text "1.5") (3 / 2) ∧
    fromUnits (.text "1.5") (.int 6) = .ok ⟨1500000, by decide⟩ ∧
    (∀ a, fromUnits (.text "1.5") (.int 0) ≠ .ok a) ∧
    FailsOnly Failure.IsEncoding (fromUnits (.text "1.5") (.int 0)) := by
  have hread : Decimal.read? "1.5" = some (.finite false 15 (-1)) := by decide +kernel
  have hvalue : Decimal.value (.finite false 15 (-1)) = 3 / 2 := by
    rw [Decimal.value_finite]
    norm_num
  have hdenotes : Denotes (.text "1.5") (3 / 2) := ⟨_, .text hread, rfl, hvalue⟩
  have hsix := (fromUnits_settles (.text "1.5") 6).2 _ hdenotes (by decide)
  have hnone := (fromUnits_settles (.text "1.5") 0).2 _ hdenotes (by decide)
  have hkept : IsKept (3 / 2) 0 := ⟨15, -1, by norm_num, by norm_num [Format.units], by decide⟩
  have hbound : |(3 / 2 : ℚ) * 10 ^ (0 : ℤ)| < Integer.textBound := by
    have htwo : ((2 : ℕ) : ℚ) < Integer.textBound :=
      Nat.cast_lt.mpr (Integer.lt_textBound (by decide))
    refine lt_trans ?_ htwo
    norm_num [abs_of_pos]
  refine ⟨hdenotes, hsix.2.1 _ (by norm_num), fun a ha => ?_, (hnone.2.2.2 hkept).2 hbound⟩
  have hunits := ((hnone.2.2.2 hkept).1 a).mp ha
  have hdouble : ((3 : ℕ) : ℚ) = ((2 * a.units : ℕ) : ℚ) := by
    push_cast
    rw [← hunits]
    norm_num
  have hthree : 3 = 2 * a.units := by exact_mod_cast hdouble
  omega

/-- One whole token and a fraction in the hundred and sixty-first place. -/
def overlong : String := String.ofList ('1' :: '.' :: (List.replicate 160 '0' ++ ['1']))

/-- More digits than the format keeps: the fraction is dropped and one unit is returned. -/
theorem fromUnits_overlong : Denotes (.text overlong) (1 + 10 ^ (-161 : ℤ)) ∧
    fromUnits (.text overlong) (.int 0) = .ok ⟨1, by decide⟩ ∧
    (1 + 10 ^ (-161 : ℤ) : ℚ) * 10 ^ (0 : ℤ) ≠ 1 := by
  have hread : Decimal.read? overlong = some (.finite false (10 ^ 161 + 1) (-161)) := by decide +kernel
  have hvalue : Decimal.value (.finite false (10 ^ 161 + 1) (-161)) = 1 + 10 ^ (-161 : ℤ) := by
    rw [Decimal.value_finite]
    norm_num
  have hscale : Decimal.scale .units (.finite false (10 ^ 161 + 1) (-161)) 0 =
      .ok (.finite false (10 ^ 159) (-159)) := by decide +kernel
  have hintegral : Decimal.isIntegral (.finite false (10 ^ 159) (-159)) = true := by decide +kernel
  have htruncate : Decimal.truncate (.finite false (10 ^ 159) (-159)) = 1 := by decide +kernel
  refine ⟨⟨_, .text hread, rfl, hvalue⟩, ?_, by norm_num⟩
  rw [fromUnits_of_scaled (.text hread) rfl hscale, hintegral, if_pos rfl, htruncate]
  rfl

/-! ## Amounts shown in whole tokens -/

/-- With a moderate number of places all digits of an amount are kept, and only the point is moved. -/
theorem toUnits_eq (a : TokenAmount) {p : ℤ} (h : |p| ≤ 999900) :
    a.toUnits (.int p) = .ok (.finite false a.units (-p)) := by
  obtain ⟨hlow, hhigh⟩ := abs_le.mp h
  have hreaches : Decimal.reaches .units (-p) = true := by
    have hreach : reach = 2000318 := rfl
    rw [reaches_units]
    omega
  have hfit : Format.units.fit false a.units (0 + -p) = .ok (.finite false a.units (0 + -p)) := by
    have hdigits : Decimal.digitCount a.units ≤ 78 := length_digits_le a
    have htiny : Format.units.tiny = -1000158 := by decide
    have hmax : Format.units.maxPower = 999999 := rfl
    refine Format.fit_of_kept false (hdigits.trans (by decide)) ?_ ?_
    · omega
    · unfold Decimal.adjusted
      omega
  show scaled (.finite (decide ((a.units : ℤ) < 0)) a.units 0) (-p) = _
  rw [decide_eq_false (not_lt.mpr (Int.natCast_nonneg a.units)), scaled, Decimal.scale, if_pos hreaches,
    hfit, zero_add]

/-- A number whose scaled form is an amount is read as that amount. -/
theorem fromUnits_of_exact {amount : Value} {d : Decimal} (h : Stands amount d)
    (hd : d.isFinite = true) {p : ℤ} (hp : p.natAbs ≤ reach) {a : TokenAmount}
    (ha : d.value * 10 ^ p = a.units) : fromUnits amount (.int p) = .ok a := by
  obtain ⟨y, hy, htaken⟩ := taken_fromUnits h hd hp
  have hexact : y = a.units := (eq_of_isKept (isKept_of_units ha) hy).trans ha
  rw [hexact] at htaken
  exact htaken.eq_ok

/-- An amount is shown as exactly the number of whole tokens that it is, and that number is read as the
same amount, for every amount and every moderate number of places of either sign. -/
theorem toUnits_round_trip (a : TokenAmount) {p : ℤ} (h : |p| ≤ 999900) :
    ∃ d : Decimal, a.toUnits (.int p) = .ok d ∧ Denotes (.decimal d) (a.units / 10 ^ p) ∧
      fromUnits (.decimal d) (.int p) = .ok a := by
  have hvalue : Decimal.value (.finite false a.units (-p)) = a.units / 10 ^ p := by
    rw [Decimal.value_finite, if_neg Bool.false_ne_true, zpow_neg, div_eq_mul_inv]
  refine ⟨.finite false a.units (-p), toUnits_eq a h, ⟨_, .decimal _, rfl, hvalue⟩, ?_⟩
  have hreach : p.natAbs ≤ reach := by
    have hbound : reach = 2000318 := rfl
    obtain ⟨hlow, hhigh⟩ := abs_le.mp h
    omega
  refine fromUnits_of_exact (.decimal _) rfl hreach ?_
  rw [hvalue, div_mul_cancel₀ _ (Decimal.ten_pow_pos p).ne']

/-- The greatest amount. -/
def greatest : TokenAmount := ⟨2 ^ 256 - 1, by decide⟩

theorem toUnits_greatest :
    |(999900 : ℤ)| ≤ 999900 ∧ |(-999900 : ℤ)| ≤ 999900 ∧
    (∃ d, greatest.toUnits (.int 999900) = .ok d ∧
      Denotes (.decimal d) (greatest.units / 10 ^ (999900 : ℤ)) ∧
      fromUnits (.decimal d) (.int 999900) = .ok greatest) ∧
    ∃ d, greatest.toUnits (.int (-999900)) = .ok d ∧
      Denotes (.decimal d) (greatest.units / 10 ^ (-999900 : ℤ)) ∧
      fromUnits (.decimal d) (.int (-999900)) = .ok greatest := by
  have hdeep : |(999900 : ℤ)| ≤ 999900 := by decide
  have hhigh : |(-999900 : ℤ)| ≤ 999900 := by decide
  exact ⟨hdeep, hhigh, toUnits_round_trip greatest hdeep, toUnits_round_trip greatest hhigh⟩

end TokenAmount

end LedgerClient
