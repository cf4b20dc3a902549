import LedgerClient.Text.Blank

/-!
# Trimming

Trimming removes what is dropped at both ends: a text whose characters all stay is left as it is, in
whatever surroundings, and every text is its trimmed form between two stretches that are dropped.
-/

namespace LedgerClient.Text

variable {drop : Char → Bool}

theorem dropWhile_append_of_kept {s : List Char} (hs : ∀ c ∈ s, drop c = false) (hne : s ≠ [])
    (after : List Char) : (s ++ after).dropWhile drop = s ++ after := by
  cases s with
  | nil => exact absurd rfl hne
  | cons c s => exact List.dropWhile_cons_of_neg (by rw [hs c List.mem_cons_self]; decide)

theorem dropWhile_of_all {s : List Char} (h : ∀ c ∈ s, drop c = true) : s.dropWhile drop = [] := by
  rw [← List.append_nil s, List.dropWhile_append_of_pos h]
  rfl

theorem trimBoth_surrounded {before s after : List Char} (hbefore : ∀ c ∈ before, drop c = true)
    (hs : ∀ c ∈ s, drop c = false) (hafter : ∀ c ∈ after, drop c = true) :
    trimBoth drop (before ++ s ++ after) = s := by
  have hafter' : ∀ c ∈ after.reverse, drop c = true := fun c hc => hafter c (List.mem_reverse.mp hc)
  have hs' : ∀ c ∈ s.reverse, drop c = false := fun c hc => hs c (List.mem_reverse.mp hc)
  rw [trimBoth, List.append_assoc, List.dropWhile_append_of_pos hbefore]
  by_cases hne : s = []
  · rw [hne, List.nil_append, dropWhile_of_all hafter]
    rfl
  · have hne' : s.reverse ≠ [] := fun h => hne (List.reverse_eq_nil_iff.mp h)
    have hkept := dropWhile_append_of_kept hs' hne' []
    rw [List.append_nil] at hkept
    rw [dropWhile_append_of_kept hs hne, List.reverse_append, List.dropWhile_append_of_pos hafter',
      hkept, List.reverse_reverse]

theorem trimBoth_of_kept {s : List Char} (h : ∀ c ∈ s, drop c = false) : trimBoth drop s = s := by
  have hnone : ∀ c ∈ ([] : List Char), drop c = true := fun c hc => absurd hc List.not_mem_nil
  have hsurrounded := trimBoth_surrounded hnone h hnone
  rw [List.nil_append, List.append_nil] at hsurrounded
  exact hsurrounded

/-- What is trimmed off at either end. -/
theorem exists_trimBoth (drop : Char → Bool) (s : List Char) : ∃ before after,
    (∀ c ∈ before, drop c = true) ∧ (∀ c ∈ after, drop c = true) ∧
      s = before ++ trimBoth drop s ++ after := by
  have htaken : ∀ t : List Char, ∀ c ∈ t.takeWhile drop, drop c = true := fun _ =>
    List.all_eq_true.mp List.all_takeWhile
  refine ⟨s.takeWhile drop, ((s.dropWhile drop).reverse.takeWhile drop).reverse, htaken s, ?_, ?_⟩
  · intro c hc
    exact htaken _ c (List.mem_reverse.mp hc)
  · rw [trimBoth, List.append_assoc, ← List.reverse_append, List.takeWhile_append_dropWhile,
      List.reverse_reverse, List.takeWhile_append_dropWhile]

end LedgerClient.Text
