import LedgerClient.Proofs.Result
import LedgerClient.Value.Number

/-!
# Which values have an order

Two numbers have an order unless one of them is a decimal that is no number. So a number that was
compared with another one can be compared with every integer, and so can the smaller of the two.
-/

namespace LedgerClient

/-- The decimal is no number. -/
def Decimal.IsNaN : Decimal → Prop
  | .nan .. => True
  | _ => False

theorem Decimal.not_isNaN_of_compare? {a b : Decimal} {o : Ordering} (h : a.compare? b = some o) :
    ¬a.IsNaN ∧ ¬b.IsNaN := by
  constructor
  · intro ha
    cases a with
    | nan => cases h
    | finite => exact ha
    | infinite => exact ha
  · intro hb
    cases b with
    | nan => cases a <;> cases h
    | finite => exact hb
    | infinite => exact hb

theorem Decimal.exists_compareInt? {d : Decimal} (h : ¬d.IsNaN) (n : Int) :
    ∃ o, d.compareInt? n = some o := by
  unfold compareInt? compare?
  split
  · exact absurd trivial h
  · next hn => cases hn
  · split
    · exact ⟨_, rfl⟩
    · split
      · exact ⟨_, rfl⟩
      · exact ⟨_, rfl⟩

namespace Value

theorem isAbove_int (m n : Int) : isAbove (.int m) n = .ok (decide (n < m)) := by
  have hgt : (compare m n == .gt) = decide (n < m) := by
    rw [Bool.eq_iff_iff, beq_iff_eq, Int.compare_eq_gt, decide_eq_true_eq]
  rw [← hgt]
  rfl

theorem isBelow_eq (m n : Int) : isBelow (.int m) n = .ok (decide (m < n)) := by
  have hlt : (compare m n == .lt) = decide (m < n) := by
    rw [Bool.eq_iff_iff, beq_iff_eq, Int.compare_eq_lt, decide_eq_true_eq]
  rw [isBelow_int, hlt]

/-! ## Bounds -/

/-- Whether the value stands for a number that is no smaller. -/
def isAtLeast (v : Value) (n : Int) : Except Fault Bool := do
  let o ← v.orderWith n
  return o == some .gt || o == some .eq

/-- The value is a float that is no number. -/
def IsNaN (v : Value) : Prop := ∃ x, v = .float x ∧ Binary.isNaN x = true

/-- Only a float that is no number is unordered without being refused. -/
theorem isNaN_of_orderWith {v : Value} {n : Int} (h : v.orderWith n = .ok none) : v.IsNaN := by
  unfold orderWith at h
  split at h
  · next x =>
    refine ⟨x, rfl, ?_⟩
    have hnone : Binary.compareInt? x n = none := Except.ok.inj h
    unfold Binary.compareInt? at hnone
    split at hnone
    · next hnan => exact hnan
    · split at hnone
      · cases hnone
      · cases hnone
  · split at h
    · cases h
    · cases h
  · split at h
    · cases h
    · cases h

/-- What is not at most a bound is above it, or is no number. -/
theorem isAbove_or_isNaN {v : Value} {n : Int} (h : v.isAtMost n = .ok false) :
    v.isAbove n = .ok true ∨ v.IsNaN := by
  obtain ⟨o, ho, hfalse⟩ := bind_eq_ok.mp h
  have hverdict : (o == some .lt || o == some .eq) = false := Except.ok.inj hfalse
  cases o with
  | none => exact .inr (isNaN_of_orderWith ho)
  | some order =>
    cases order with
    | lt => cases hverdict
    | eq => cases hverdict
    | gt =>
      left
      rw [isAbove, ho]
      rfl

/-- What is not below a bound is at least the bound, or is no number. -/
theorem isAtLeast_or_isNaN {v : Value} {n : Int} (h : v.isBelow n = .ok false) :
    v.isAtLeast n = .ok true ∨ v.IsNaN := by
  obtain ⟨o, ho, hfalse⟩ := bind_eq_ok.mp h
  have hverdict : (o == some .lt) = false := Except.ok.inj hfalse
  cases o with
  | none => exact .inr (isNaN_of_orderWith ho)
  | some order =>
    left
    rw [isAtLeast, ho]
    cases order with
    | lt => cases hverdict
    | eq => rfl
    | gt => rfl

/-! ## Numbers -/

/-- The value stands for a number. -/
def IsNumber (v : Value) : Prop := ∃ d, v.number? = some d

theorem exists_isAbove {v : Value} {d : Decimal} (hv : v.number? = some d)
    (hnan : v.isDecimal = true → ¬d.IsNaN) (n : Int) : ∃ b, v.isAbove n = .ok b := by
  have horder : ∃ o, v.orderWith n = .ok o := by
    cases v with
    | float x => exact ⟨_, rfl⟩
    | int m => exact ⟨_, rfl⟩
    | bool b => exact ⟨_, rfl⟩
    | decimal d' =>
      obtain rfl : d' = d := Option.some.inj hv
      obtain ⟨o, ho⟩ := Decimal.exists_compareInt? (hnan rfl) n
      rw [orderWith, ho]
      exact ⟨_, rfl⟩
    | _ => cases hv
  obtain ⟨o, ho⟩ := horder
  rw [isAbove, ho]
  exact ⟨_, rfl⟩

/-- What has an order with another number has one with every integer. -/
theorem exists_isAbove_of_orderNumbers {a b : Value} {o : Option Ordering}
    (h : orderNumbers a b = .ok o) (n : Int) :
    (∃ x, a.isAbove n = .ok x) ∧ ∃ y, b.isAbove n = .ok y := by
  unfold orderNumbers at h
  split at h
  · next x y hx hy =>
    split at h
    · next hcompare =>
      obtain ⟨hxnan, hynan⟩ := Decimal.not_isNaN_of_compare? hcompare
      exact ⟨exists_isAbove hx (fun _ => hxnan) n, exists_isAbove hy (fun _ => hynan) n⟩
    · split at h
      · cases h
      · next hplain =>
        rw [Bool.or_eq_true, not_or] at hplain
        exact ⟨exists_isAbove hx (fun ha => absurd ha hplain.1) n,
          exists_isAbove hy (fun hb => absurd hb hplain.2) n⟩
  · cases h

theorem isLess_of_isNumber {a b : Value} (ha : a.IsNumber) :
    isLess a b = do
      let o ← orderNumbers a b
      return o == some .lt := by
  obtain ⟨d, hd⟩ := ha
  cases a with
  | int => rw [isLess] <;> simp [isLessScalar, text?, bytes?]
  | bool => rw [isLess] <;> simp [isLessScalar, text?, bytes?]
  | float => rw [isLess] <;> simp [isLessScalar, text?, bytes?]
  | decimal => rw [isLess] <;> simp [isLessScalar, text?, bytes?]
  | _ => cases hd

/-- The smaller of two values can be compared with integers when the second one is a number. -/
theorem exists_isAbove_of_smaller {a b v : Value} (hb : b.IsNumber) (h : a.smaller b = .ok v)
    (n : Int) : ∃ x, v.isAbove n = .ok x := by
  obtain ⟨less, hless, hv⟩ := bind_eq_ok.mp h
  rw [isLess_of_isNumber hb] at hless
  obtain ⟨o, ho, -⟩ := bind_eq_ok.mp hless
  obtain ⟨hfirst, hsecond⟩ := exists_isAbove_of_orderNumbers ho n
  cases less with
  | true =>
    obtain rfl : b = v := Except.ok.inj hv
    exact hfirst
  | false =>
    obtain rfl : a = v := Except.ok.inj hv
    exact hsecond

end Value

end LedgerClient
