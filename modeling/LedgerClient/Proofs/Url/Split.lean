import LedgerClient.Proofs.Url.Form
import Mathlib.Data.List.TakeWhile

/-!
# A URL with a query

A query behind an address shows in no other part of the URL: it reads as the scheme, the authority and the
path of the address with that query, and no fragment begins in it. What is read as an address of the web
holds a letter.
-/

namespace LedgerClient.Url

/-! ## What stands in front of a mark -/

section

variable {drop : Char → Bool} {mark : Char}

theorem takeWhile_append_stop (h : drop mark = false) (s rest : List Char) :
    (s ++ mark :: rest).takeWhile drop = s.takeWhile drop := by
  induction s with
  | nil => simp [h]
  | cons c s ih =>
    by_cases hc : drop c = true
    · simp [hc, ih]
    · simp [hc]

theorem dropWhile_append_stop (h : drop mark = false) (s rest : List Char) :
    (s ++ mark :: rest).dropWhile drop = s.dropWhile drop ++ mark :: rest := by
  induction s with
  | nil => simp [h]
  | cons c s ih =>
    by_cases hc : drop c = true
    · simp [hc, ih]
    · simp [hc]

/-- Where the text stops by itself, nothing behind it matters. -/
theorem span_append_of_stop {s rest : List Char} {c : Char} (h : s.dropWhile drop = c :: rest)
    (t : List Char) :
    (s ++ t).takeWhile drop = s.takeWhile drop ∧ (s ++ t).dropWhile drop = c :: (rest ++ t) := by
  have hlength : ¬(s.takeWhile drop).length = s.length := by
    intro hall
    have hlen := congrArg List.length (List.takeWhile_append_dropWhile (p := drop) (l := s))
    rw [List.length_append, h, List.length_cons] at hlen
    omega
  rw [List.dropWhile_append, List.takeWhile_append, h, if_neg hlength]
  exact ⟨rfl, rfl⟩

end

/-- What counts in a URL stands behind the blanks at its beginning and is no tab and no line end. -/
theorem tidy_append {q : List Char} (h : ∀ c ∈ q, 32 < c.toNat) (s : List Char) :
    tidy (s ++ '?' :: q) = tidy s ++ '?' :: q := by
  have hkept : ('?' :: q).filter (fun c => c != '\t' && c != '\r' && c != '\n') = '?' :: q := by
    apply List.filter_eq_self.mpr
    intro c hc
    have hbound : 32 < c.toNat := by
      rcases List.mem_cons.mp hc with rfl | hmem
      · decide
      · exact h c hmem
    have hne : ∀ d : Char, d.toNat ≤ 32 → c ≠ d := by
      rintro d hd rfl
      omega
    simp [hne '\t' (by decide), hne '\r' (by decide), hne '\n' (by decide)]
  unfold tidy
  rw [dropWhile_append_stop (by decide), List.filter_append, hkept]

theorem tidy_subset (s : List Char) : tidy s ⊆ s :=
  fun _ hc => List.dropWhile_subset _ (List.mem_filter.mp hc).1

/-! ## Part by part -/

/-- Text behind a URL belongs to what follows the scheme, unless it brings the first colon. -/
theorem splitScheme_append {s t : List Char} (h : ':' ∈ s ∨ ':' ∉ t) :
    splitScheme (s ++ t) = ((splitScheme s).1, (splitScheme s).2 ++ t) := by
  unfold splitScheme
  cases hrest : s.dropWhile (· ≠ ':') with
  | nil =>
    have hs : ':' ∉ s := fun hmem =>
      absurd rfl (of_decide_eq_true (List.dropWhile_eq_nil_iff.mp hrest ':' hmem))
    have ht : t.dropWhile (· ≠ ':') = [] := dropWhile_ne_of_not_mem (h.resolve_left hs)
    rw [List.dropWhile_append, hrest]
    simp only [List.isEmpty_nil, if_true, ht]
  | cons c rest =>
    obtain ⟨hname, hbehind⟩ := span_append_of_stop hrest t
    rw [hname, hbehind]
    simp only
    split <;> rfl

theorem splitScheme_suffix (s : List Char) : (splitScheme s).2 <:+ s := by
  unfold splitScheme
  cases hrest : s.dropWhile (· ≠ ':') with
  | nil => exact List.suffix_refl s
  | cons c rest =>
    simp only
    split
    · exact (List.suffix_cons c rest).trans (hrest ▸ List.dropWhile_suffix _)
    · exact List.suffix_refl s

theorem splitScheme_subset (s : List Char) : (splitScheme s).2 ⊆ s := (splitScheme_suffix s).subset

theorem splitAuthority_of_no_slashes {s : List Char} (h : ∀ rest, s ≠ '/' :: '/' :: rest) :
    splitAuthority s = ([], s) := by
  unfold splitAuthority
  split
  · next rest => exact absurd rfl (h rest)
  · rfl

theorem splitAuthority_append (s q : List Char) :
    splitAuthority (s ++ '?' :: q) = ((splitAuthority s).1, (splitAuthority s).2 ++ '?' :: q) := by
  by_cases hslashes : ∃ rest, s = '/' :: '/' :: rest
  · obtain ⟨rest, rfl⟩ := hslashes
    show splitAuthority ('/' :: '/' :: (rest ++ '?' :: q)) = _
    simp only [splitAuthority]
    rw [takeWhile_append_stop (by decide), dropWhile_append_stop (by decide)]
  · -- the sign of the query is no slash, so behind it none of the two is made up
    have hwhole : ∀ rest, s ++ '?' :: q ≠ '/' :: '/' :: rest := by
      intro rest heq
      match s, hslashes, heq with
      | [], _, heq => cases heq
      | [_], _, heq => cases heq
      | _ :: _ :: t, hslashes, heq =>
        simp only [List.cons_append, List.cons.injEq] at heq
        exact hslashes ⟨t, by rw [heq.1, heq.2.1]⟩
    rw [splitAuthority_of_no_slashes hwhole,
      splitAuthority_of_no_slashes fun rest hrest => hslashes ⟨rest, hrest⟩]

theorem splitAuthority_suffix (s : List Char) : (splitAuthority s).2 <:+ s := by
  unfold splitAuthority
  split
  · next rest =>
    exact (List.dropWhile_suffix _).trans ((List.suffix_cons '/' rest).trans (List.suffix_cons '/' _))
  · exact List.suffix_refl s

theorem splitAuthority_subset (s : List Char) : (splitAuthority s).2 ⊆ s :=
  (splitAuthority_suffix s).subset

/-! ## The whole -/

/-- Behind an address without marks of its own, a query is the query of the URL and nothing else. -/
theorem splitChars_append {s q : List Char} {parts : Parts} (hmark : '?' ∉ s) (hfragment : '#' ∉ s)
    (hplain : ∀ c ∈ q, 32 < c.toNat) (hcolon : ':' ∉ q) (hhash : '#' ∉ q)
    (h : splitChars s = some parts) :
    parts.query = none ∧ parts.fragment = none ∧
      splitChars (s ++ '?' :: q) = some { parts with query := some (String.ofList q) } := by
  unfold splitChars at h ⊢
  simp only at h ⊢
  rw [tidy_append hplain, splitScheme_append (.inr (by simp [hcolon]))]
  simp only
  rw [splitAuthority_append]
  simp only
  have hsub : (splitAuthority (splitScheme (tidy s)).2).2 ⊆ s := fun c hc =>
    tidy_subset s (splitScheme_subset _ (splitAuthority_subset _ hc))
  generalize (splitAuthority (splitScheme (tidy s)).2).2 = rest at h hsub ⊢
  have hrestMark : '?' ∉ rest := fun hc => hmark (hsub hc)
  have hrestHash : '#' ∉ rest := fun hc => hfragment (hsub hc)
  rw [cutAt_eq_none hrestHash, cutAt_eq_none hrestMark] at h
  have hboth : '#' ∉ rest ++ '?' :: q := by
    rw [List.mem_append, List.mem_cons]
    rintro (hc | hc | hc)
    · exact hrestHash hc
    · exact absurd hc (by decide)
    · exact hhash hc
  rw [cutAt_eq_none hboth, cutAt_append hrestMark]
  split at h
  · next hfits =>
    obtain rfl := Option.some.inj h
    rw [if_pos hfits]
    exact ⟨rfl, rfl, rfl⟩
  · cases h

/-! ## Addresses of the web -/

/-- A scheme begins with a letter, and what stands before it does not count. -/
theorem exists_letter_of_isWeb {s : String} {parts : Parts} (h : split? s = some parts)
    (hweb : parts.isWeb = true) : ∃ c ∈ s.toList, isAsciiLetter c = true := by
  unfold split? splitChars at h
  simp only at h
  split at h
  · obtain rfl := Option.some.inj h
    have hscheme : (splitScheme (tidy s.toList)).1 ≠ [] := by
      intro hnil
      rw [Parts.isWeb] at hweb
      simp [hnil] at hweb
    unfold splitScheme at hscheme
    split at hscheme
    · next c rest hrest =>
      simp only at hscheme
      split at hscheme
      · next hname =>
        rw [Bool.and_eq_true] at hname
        cases hhead : ((tidy s.toList).takeWhile (· ≠ ':')).head? with
        | none =>
          rw [hhead] at hname
          exact absurd hname.1 (by decide)
        | some first =>
          rw [hhead] at hname
          have hmem : first ∈ (tidy s.toList).takeWhile (· ≠ ':') := List.mem_of_mem_head? hhead
          exact ⟨first, tidy_subset _ (List.takeWhile_subset _ hmem), hname.1⟩
      · exact absurd rfl hscheme
    · exact absurd rfl hscheme
  · cases h

end LedgerClient.Url
