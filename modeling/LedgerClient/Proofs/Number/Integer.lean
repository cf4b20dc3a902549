import LedgerClient.Number.Floating
import LedgerClient.Number.Integer
import LedgerClient.Proofs.Text.Blank
import Mathlib.Data.List.Basic

/-!
# Numerals are read back

The digits that are written for a number denote it, and the first of them is zero for zero alone.
Every reader of digits that knows these characters therefore gets the number back.
-/

namespace LedgerClient.Integer

/-- A number of 256 bits has a text. -/
theorem lt_textBound {n : Nat} (h : n < 2 ^ 256) : n < textBound := by
  unfold textBound
  calc n < 2 ^ 256 := h
    _ ≤ 10 ^ 78 := by decide
    _ ≤ 10 ^ digitLimit := Nat.pow_le_pow_right (by decide) (by decide)

theorem ofDigits_concat (base : Nat) (ds : List Nat) (d : Nat) :
    ofDigits base (ds ++ [d]) = base * ofDigits base ds + d := by
  rw [ofDigits, ofDigits, List.foldl_append]
  rfl

/-- Digits read behind a number `n` stay below the next number with as many digits behind it. -/
theorem foldl_digits_lt {base : Nat} {ds : List Nat} (h : ∀ d ∈ ds, d < base) (n : Nat) :
    ds.foldl (fun n d => base * n + d) n < (n + 1) * base ^ ds.length := by
  induction ds generalizing n with
  | nil =>
    rw [List.foldl_nil, List.length_nil, Nat.pow_zero]
    omega
  | cons d ds ih =>
    have hd := h d List.mem_cons_self
    rw [List.foldl_cons, List.length_cons]
    calc ds.foldl (fun n d => base * n + d) (base * n + d)
        < (base * n + d + 1) * base ^ ds.length := ih (fun e he => h e (List.mem_cons_of_mem d he)) _
      _ ≤ ((n + 1) * base) * base ^ ds.length := by
          refine Nat.mul_le_mul_right _ ?_
          rw [Nat.add_mul, Nat.one_mul, Nat.mul_comm n base]
          omega
      _ = (n + 1) * base ^ (ds.length + 1) := by rw [Nat.pow_succ', Nat.mul_assoc]

theorem ofDigits_lt {base : Nat} {ds : List Nat} (h : ∀ d ∈ ds, d < base) :
    ofDigits base ds < base ^ ds.length := by
  have hlt := foldl_digits_lt h 0
  rwa [Nat.zero_add, Nat.one_mul] at hlt

theorem ofDigits_zeros (base k : Nat) : ofDigits base (List.replicate k 0) = 0 := by
  induction k with
  | zero => rfl
  | succ k ih => exact ih

/-- The written digits, as numbers. -/
theorem exists_digits {base : Nat} (hbase : 1 < base) (n : Nat) :
    ∃ ds : List Nat, Nat.toDigits base n = ds.map Nat.digitChar ∧ (∀ d ∈ ds, d < base) ∧
      ofDigits base ds = n ∧ ds ≠ [] ∧ (ds.head? = some 0 → ds = [0]) := by
  induction n using Nat.strongRecOn with
  | _ n ih =>
    by_cases h : n < base
    · refine ⟨[n], Nat.toDigits_of_lt_base h, ?_, ?_, List.cons_ne_nil n [], ?_⟩
      · intro d hd
        rw [List.mem_singleton.mp hd]
        exact h
      · show base * 0 + n = n
        omega
      · intro hzero
        rw [Option.some.inj hzero]
    · have hlt : n / base < n := Nat.div_lt_self (by omega) hbase
      have hpos : 0 < n / base := Nat.div_pos (by omega) (by omega)
      obtain ⟨ds, hds, hall, hvalue, hne, hhead⟩ := ih (n / base) hlt
      refine ⟨ds ++ [n % base], ?_, ?_, ?_, ?_, ?_⟩
      · rw [Nat.toDigits_of_base_le hbase (by omega), hds, List.map_append]
        rfl
      · intro d hd
        rcases List.mem_append.mp hd with hd | hd
        · exact hall d hd
        · rw [List.mem_singleton.mp hd]
          exact Nat.mod_lt n (by omega)
      · rw [ofDigits_concat, hvalue]
        exact Nat.div_add_mod n base
      · exact List.append_ne_nil_of_left_ne_nil hne _
      · intro hzero
        have hfirst : (ds ++ [n % base]).head? = ds.head? := by
          cases ds with
          | nil => exact absurd rfl hne
          | cons d ds => rfl
        rw [hhead (hfirst.symm.trans hzero)] at hvalue
        have hnone : n / base = 0 := hvalue.symm
        omega

theorem asciiDigit?_digitChar {d : Nat} (h : d < 10) :
    Text.asciiDigit? (Nat.digitChar d) = some d := by
  have hall : ∀ d < 10, Text.asciiDigit? (Nat.digitChar d) = some d := by decide
  exact hall d h

theorem digitChar_of_asciiDigit? {c : Char} {d : Nat} (h : Text.asciiDigit? c = some d) :
    Nat.digitChar d = c := by
  have hd := Text.asciiDigit?_lt h
  have hzero : '0'.toNat = 48 := rfl
  unfold Text.asciiDigit? at h
  split at h
  · cases h
    apply Char.toNat_inj.mp
    rw [Nat.toNat_digitChar_of_lt_ten hd]
    omega
  · cases h

theorem not_isBlank_digitChar {d : Nat} (h : d < 16) : Text.isBlank (Nat.digitChar d) = false := by
  have hall : ∀ d < 16, Text.isBlank (Nat.digitChar d) = false := by decide
  exact hall d h

theorem mapM_digitChar {read : Char → Option Nat} {ds : List Nat}
    (h : ∀ d ∈ ds, read (Nat.digitChar d) = some d) : (ds.map Nat.digitChar).mapM read = some ds := by
  induction ds with
  | nil => rfl
  | cons d ds ih =>
    have hrest := ih fun e he => h e (List.mem_cons_of_mem d he)
    simp only [List.map_cons, List.mapM_cons, h d List.mem_cons_self, hrest, Option.bind_eq_bind,
      Option.bind_some, Option.pure_def]

end LedgerClient.Integer

namespace LedgerClient.Floating

theorem isDigit_digitChar {d : Nat} (h : d < 10) : isDigit (Nat.digitChar d) = true := by
  rw [isDigit, Integer.asciiDigit?_digitChar h]
  rfl

theorem digitsValue_digits {ds : List Nat} (h : ∀ d ∈ ds, d < 10) :
    digitsValue (ds.map Nat.digitChar) = Integer.ofDigits 10 ds := by
  rw [digitsValue, Integer.ofDigits, List.foldl_map]
  refine List.foldl_ext _ _ 0 fun n d hd => ?_
  rw [Integer.asciiDigit?_digitChar (h d hd), Option.getD_some]

end LedgerClient.Floating
