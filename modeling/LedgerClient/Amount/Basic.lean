import LedgerClient.Number.Integer

/-!
# Token amounts

An amount counts the smallest units of a token and is below `2 ^ 256`. Sums and differences
that leave the range have no amount.
-/

namespace LedgerClient

structure TokenAmount where
  units : Nat
  units_lt : units < 2 ^ 256
  deriving DecidableEq

namespace TokenAmount

theorem ext {a b : TokenAmount} (h : a.units = b.units) : a = b := by
  cases a; cases b; simp_all

instance : Inhabited TokenAmount := ⟨⟨0, by decide⟩⟩

/-- The amount of an integer in range. -/
def ofInt? (n : Int) : Option TokenAmount :=
  match n with
  | .ofNat k => if h : k < 2 ^ 256 then some ⟨k, h⟩ else none
  | .negSucc _ => none

theorem ofInt?_units (a : TokenAmount) : ofInt? (a.units : Int) = some a :=
  dif_pos a.units_lt

theorem units_of_ofInt? {n : Int} {a : TokenAmount} (h : ofInt? n = some a) : (a.units : Int) = n := by
  cases n with
  | ofNat k =>
    simp only [ofInt?] at h
    split at h
    · simp only [Option.some.injEq] at h; subst h; rfl
    · simp at h
  | negSucc k => simp [ofInt?] at h

/-- The decimal text in requests and responses. -/
def wire (a : TokenAmount) : String := Integer.decimal a.units

end TokenAmount

end LedgerClient
