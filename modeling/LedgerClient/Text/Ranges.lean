/-!
# Sets of characters given by ranges

A set of code points is a list of closed ranges in increasing order. A search stops
at the first range that ends behind the code point.
-/

namespace LedgerClient.Text

abbrev Ranges := List (Nat × Nat)

namespace Ranges

def has (n : Nat) : Ranges → Bool
  | [] => false
  | (low, high) :: rest => if n ≤ high then decide (low ≤ n) else has n rest

theorem has_nil (n : Nat) : has n [] = false := rfl

theorem has_cons_of_mem {n low high : Nat} (rest : Ranges) (hl : low ≤ n) (hh : n ≤ high) :
    has n ((low, high) :: rest) = true := by
  simp [has, hl, hh]

theorem has_cons_of_gt {n low high : Nat} (rest : Ranges) (h : high < n) :
    has n ((low, high) :: rest) = has n rest := by
  simp [has, Nat.not_le.mpr h]

end Ranges

end LedgerClient.Text
