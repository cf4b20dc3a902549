import LedgerClient.Proofs.Number.Integer
import LedgerClient.Proofs.Number.Rounding
import LedgerClient.Proofs.Text.Blank
import Mathlib.Data.List.TakeWhile

/-!
# Integers as decimals

The text of an integer is read as the decimal of that integer, with nothing behind the point.
-/

namespace LedgerClient

namespace Decimal

theorem plainChar_of_lt {c : Char} (h : c.toNat < 128) : plainChar c = some c := if_pos h

theorem mapM_plainChar {cs : List Char} (h : ∀ c ∈ cs, c.toNat < 128) : cs.mapM plainChar = some cs := by
  induction cs with
  | nil => rfl
  | cons c cs ih =>
    have hrest := ih fun d hd => h d (List.mem_cons_of_mem c hd)
    simp only [List.mapM_cons, plainChar_of_lt (h c List.mem_cons_self), hrest, Option.bind_eq_bind,
      Option.bind_some, Option.pure_def]

/-- Plain characters that are no blanks and no underscores are read as they stand. -/
theorem read?_of_plain {cs : List Char}
    (h : ∀ c ∈ cs, c.toNat < 128 ∧ Text.isBlank c = false ∧ c ≠ '_') :
    read? (String.ofList cs) = match Floating.readUnsigned (Floating.splitSign cs).2 with
      | some n => finite? (Floating.splitSign cs).1 n.mantissa n.exponent
      | none => readWord (Floating.splitSign cs).1 (Floating.splitSign cs).2 := by
  have htrim : Text.trimChars cs = cs := Text.trimBoth_of_kept fun c hc => (h c hc).2.1
  have hfilter : cs.filter (· ≠ '_') = cs :=
    List.filter_eq_self.mpr fun c hc => decide_eq_true (h c hc).2.2
  rw [read?, String.toList_ofList, htrim, hfilter, mapM_plainChar fun c hc => (h c hc).1]
  rfl

theorem readUnsigned_digitChar {ds : List ℕ} (h : ∀ d ∈ ds, d < 10) (hne : ds ≠ []) :
    Floating.readUnsigned (ds.map Nat.digitChar) = some ⟨Integer.ofDigits 10 ds, 0⟩ := by
  have hdigit : ∀ c ∈ ds.map Nat.digitChar, Floating.isDigit c = true := by
    intro c hc
    obtain ⟨d, hd, rfl⟩ := List.mem_map.mp hc
    exact Floating.isDigit_digitChar (h d hd)
  have htake : (ds.map Nat.digitChar).takeWhile Floating.isDigit = ds.map Nat.digitChar :=
    List.takeWhile_eq_self_iff.mpr hdigit
  have hdrop : (ds.map Nat.digitChar).dropWhile Floating.isDigit = [] :=
    List.dropWhile_eq_nil_iff.mpr hdigit
  have hfilled : (ds.map Nat.digitChar).isEmpty = false := by
    cases ds with
    | nil => exact absurd rfl hne
    | cons d ds => rfl
  rw [Floating.readUnsigned, htake, hdrop]
  simp only [hfilled, Bool.false_and, Bool.false_eq_true, if_false, List.append_nil,
    Floating.digitsValue_digits h, List.length_nil]
  rfl

theorem splitSign_digitChar {ds : List ℕ} (h : ∀ d ∈ ds, d < 10) :
    Floating.splitSign (ds.map Nat.digitChar) = (false, ds.map Nat.digitChar) := by
  cases ds with
  | nil => rfl
  | cons d ds =>
    have hd := h d List.mem_cons_self
    have hsign : ∀ d < 10, Nat.digitChar d ≠ '-' ∧ Nat.digitChar d ≠ '+' := by decide
    unfold Floating.splitSign
    split
    · next heq => exact absurd (List.cons.inj heq).1 (hsign d hd).1
    · next heq => exact absurd (List.cons.inj heq).1 (hsign d hd).2
    · rfl

/-- An integer with a text is held by a decimal. -/
theorem finite?_integer (negative : Bool) {c : ℕ} (h : c < Integer.textBound) :
    finite? negative c 0 = some (.finite negative c 0) := by
  have hdigits : digitCount c ≤ Integer.digitLimit := by
    rw [digitCount_le_iff (by decide)]
    unfold Integer.textBound at h
    exact h
  have hlimit : Integer.digitLimit = 4300 := rfl
  have hmax : maxExponent = 999999999999999999 := rfl
  have hmin : minExponent = -1999999999999999997 := rfl
  have htop : (if c = 0 then (0 : ℤ) else adjusted c 0) ≤ maxExponent := by
    unfold adjusted
    split
    · omega
    · omega
  exact if_pos ⟨htop, by omega⟩

/-- The text of an integer is read as that integer. -/
theorem read?_decimal {n : ℤ} (h : n.natAbs < Integer.textBound) :
    read? (Integer.decimal n) = some (.ofInt n) := by
  obtain ⟨ds, hds, hall, hvalue, hne, -⟩ := Integer.exists_digits (by decide : 1 < 10) n.natAbs
  have hplain : ∀ d < 10, (Nat.digitChar d).toNat < 128 ∧ Text.isBlank (Nat.digitChar d) = false ∧
      Nat.digitChar d ≠ '_' := by decide
  have hdigits : ∀ c ∈ ds.map Nat.digitChar, c.toNat < 128 ∧ Text.isBlank c = false ∧ c ≠ '_' := by
    intro c hc
    obtain ⟨d, hd, rfl⟩ := List.mem_map.mp hc
    exact hplain d (hall d hd)
  rw [Integer.decimal, Integer.decimalChars, hds, ofInt]
  cases hsign : decide (n < 0) with
  | true =>
    have hminus : ∀ c ∈ '-' :: ds.map Nat.digitChar,
        c.toNat < 128 ∧ Text.isBlank c = false ∧ c ≠ '_' :=
      List.forall_mem_cons.mpr ⟨by decide, hdigits⟩
    have hsplit : Floating.splitSign ('-' :: ds.map Nat.digitChar) = (true, ds.map Nat.digitChar) := rfl
    rw [Integer.signedChars, if_pos rfl, read?_of_plain hminus, hsplit]
    simp only [readUnsigned_digitChar hall hne, hvalue]
    exact finite?_integer true h
  | false =>
    rw [Integer.signedChars, if_neg Bool.false_ne_true, read?_of_plain hdigits, splitSign_digitChar hall]
    simp only [readUnsigned_digitChar hall hne, hvalue]
    exact finite?_integer false h

theorem value_ofInt (n : ℤ) : (ofInt n).value = n := by
  rw [ofInt, value, zpow_zero, mul_one, signed]
  split
  · next hsign =>
    have hneg : n < 0 := of_decide_eq_true hsign
    exact_mod_cast (by omega : -(n.natAbs : ℤ) = n)
  · next hsign =>
    have hnonneg : ¬n < 0 := fun hneg => hsign (decide_eq_true hneg)
    exact_mod_cast (by omega : (n.natAbs : ℤ) = n)

end Decimal

end LedgerClient
