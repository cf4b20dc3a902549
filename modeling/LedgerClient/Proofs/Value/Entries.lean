import LedgerClient.Value.Equality

/-!
# Entries of dictionaries

A text is no other key, so what is written at a text key is found there, and what stands at other text keys
is left alone.
-/

namespace LedgerClient.Value

theorem sameKey_text (a b : String) : sameKey (.text a) (.text b) = decide (a = b) := by
  rw [sameKey, equal_text]
  rfl

theorem sameKey_text_of_ne {k : Value} (hk : ∀ a, k ≠ .text a) (key : String) :
    sameKey k (.text key) = false := by
  have hequal : equal k (.text key) = equalScalars k (.text key) := by
    cases k with
    | text a => exact absurd rfl (hk a)
    | _ => simp only [equal]
  have hnot : equalScalars k (.text key) = .ok false := by
    have hnumber : (Value.text key).number? = none := rfl
    have hbytes : (Value.text key).bytes? = none := rfl
    unfold equalScalars
    rw [hnumber, hbytes]
    cases k.number? <;> cases k.bytes? <;> rfl
  have hNaN : (Value.text key).isNaN = false := rfl
  rw [sameKey, hequal, hnot, hNaN, Bool.and_false]
  rfl

theorem lookup_of_not_text {k : Value} (hk : ∀ a, k ≠ .text a) (key : String) (v : Value)
    (rest : List (Value × Value)) : lookup key ((k, v) :: rest) = lookup key rest := by
  cases k with
  | text a => exact absurd rfl (hk a)
  | _ => rfl

theorem lookup_text (key k : String) (v : Value) (rest : List (Value × Value)) :
    lookup key ((.text k, v) :: rest) = if k = key then some v else lookup key rest := rfl

/-- Written at one key, a value is found there and nowhere else. -/
theorem lookup_insertEntry (key other : String) (value : Value) (entries : List (Value × Value)) :
    lookup other (insertEntry (.text key) value entries) =
      if key = other then some value else lookup other entries := by
  induction entries with
  | nil => exact lookup_text other key value []
  | cons e rest ih =>
    obtain ⟨k, v⟩ := e
    by_cases hk : ∃ a, k = .text a
    · obtain ⟨a, rfl⟩ := hk
      rw [insertEntry, sameKey_text]
      by_cases ha : a = key
      · subst ha
        rw [if_pos (decide_eq_true rfl), lookup_text, lookup_text]
        split <;> rfl
      · rw [if_neg (by simpa using ha), lookup_text, lookup_text, ih]
        by_cases hother : a = other
        · subst hother
          rw [if_pos rfl, if_pos rfl, if_neg fun h => ha h.symm]
        · rw [if_neg hother, if_neg hother]
    · have hne : ∀ a, k ≠ .text a := fun a ha => hk ⟨a, ha⟩
      rw [insertEntry, sameKey_text_of_ne hne, if_neg Bool.false_ne_true, lookup_of_not_text hne,
        lookup_of_not_text hne, ih]

end LedgerClient.Value
