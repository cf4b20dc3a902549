import LedgerClient.Proofs.Hexadecimal
import LedgerClient.Proofs.Text.Utf8
import LedgerClient.Url.Query
import LedgerClient.Url.Split

/-!
# Forms

The other side reads a query as a form: it cuts at each `&`, cuts each part at its first `=`, takes a
plus for a blank and a percent sign with two digits for a byte, and decodes the bytes as UTF-8. Here
reading a query gives back the names and texts that were put in, whatever characters they hold.
-/

namespace LedgerClient.Url

/-! ## One text -/

/-- The bytes that a name or a value stands for. A percent sign without two digits behind it stands for
itself. -/
def unquoteChars : List Char → Bytes
  | [] => []
  | '%' :: high :: low :: rest =>
    match Bytes.hexValue? high, Bytes.hexValue? low with
    | some h, some l => UInt8.ofNat (16 * h + l) :: unquoteChars rest
    | _, _ => String.utf8EncodeChar '%' ++ unquoteChars (high :: low :: rest)
  | c :: rest => (if c = '+' then [32] else String.utf8EncodeChar c) ++ unquoteChars rest

theorem unquoteChars_cons {c : Char} (h : c ≠ '%') (rest : List Char) :
    unquoteChars (c :: rest) =
      (if c = '+' then [32] else String.utf8EncodeChar c) ++ unquoteChars rest := by
  rw [unquoteChars]
  intro high low tail hc
  exact absurd hc h

theorem unquoteChars_escape {high low : Char} {h l : Nat} (hhigh : Bytes.hexValue? high = some h)
    (hlow : Bytes.hexValue? low = some l) (rest : List Char) :
    unquoteChars ('%' :: high :: low :: rest) = UInt8.ofNat (16 * h + l) :: unquoteChars rest := by
  rw [unquoteChars]
  simp only [hhigh, hlow]

theorem hexValue?_upperHexDigit {n : Nat} (h : n < 16) :
    Bytes.hexValue? (upperHexDigit n) = some n := by
  revert n
  decide

/-- Only ASCII is left as it is. -/
theorem lt_of_isUnreserved {b : UInt8} (h : isUnreserved b = true) : b.toNat < 128 := by
  simp only [isUnreserved, Bool.or_eq_true, Bool.and_eq_true, decide_eq_true_eq] at h
  omega

/-- A property of the bytes that are left as they are, checked on their codes. -/
theorem of_isUnreserved {P : UInt8 → Prop}
    (hall : ∀ n < 128, isUnreserved (UInt8.ofNat n) = true → P (UInt8.ofNat n)) {b : UInt8}
    (h : isUnreserved b = true) : P b := by
  have hb := hall b.toNat (lt_of_isUnreserved h)
  rw [UInt8.ofNat_toNat] at hb
  exact hb h

/-- A byte that is left as it is stands for itself, and no sign of the form does. -/
theorem unreserved_byte {b : UInt8} (h : isUnreserved b = true) :
    Char.ofNat b.toNat ≠ '%' ∧ Char.ofNat b.toNat ≠ '+' ∧
      String.utf8EncodeChar (Char.ofNat b.toNat) = [b] :=
  of_isUnreserved (P := fun b => Char.ofNat b.toNat ≠ '%' ∧ Char.ofNat b.toNat ≠ '+' ∧
    String.utf8EncodeChar (Char.ofNat b.toNat) = [b]) (by decide) h

theorem unquoteChars_quoteByte (b : UInt8) (rest : List Char) :
    unquoteChars (quoteByte b ++ rest) = b :: unquoteChars rest := by
  unfold quoteByte
  by_cases hbare : isUnreserved b = true
  · obtain ⟨hpercent, hplus, hself⟩ := unreserved_byte hbare
    rw [if_pos hbare, List.singleton_append, unquoteChars_cons hpercent, if_neg hplus, hself]
    rfl
  · rw [if_neg hbare]
    by_cases hblank : b.toNat = 32
    · have hb : b = 32 := UInt8.toNat.inj hblank
      rw [if_pos hblank, List.singleton_append, unquoteChars_cons (by decide), if_pos rfl, hb]
      rfl
    · have hlt := b.toNat_lt
      have hbyte : 16 * (b.toNat / 16) + b.toNat % 16 = b.toNat := by omega
      rw [if_neg hblank]
      show unquoteChars ('%' :: _ :: _ :: rest) = _
      rw [unquoteChars_escape (hexValue?_upperHexDigit (by omega))
        (hexValue?_upperHexDigit (by omega)), hbyte, UInt8.ofNat_toNat]

theorem unquoteChars_quoteBytes (bs : Bytes) : unquoteChars (quoteBytes bs) = bs := by
  induction bs with
  | nil => rfl
  | cons b bs ih =>
    show unquoteChars (quoteByte b ++ quoteBytes bs) = b :: bs
    rw [unquoteChars_quoteByte, ih]

/-- The text that a name or a value stands for. -/
def unquote (s : List Char) : String := Text.ofUtf8 (unquoteChars s)

theorem unquote_quoteText (s : String) : unquote (quoteText s) = s := by
  rw [unquote, quoteText, unquoteChars_quoteBytes, Text.ofUtf8_utf8]

/-! ## The characters of a quoted text -/

/-- Letters, digits and the few signs that quoting leaves or makes. -/
def isQuotedChar (c : Char) : Bool := c.isAlphanum || ['_', '.', '-', '~', '+', '%'].contains c

theorem isQuotedChar_upperHexDigit {n : Nat} (h : n < 16) : isQuotedChar (upperHexDigit n) = true := by
  revert n
  decide

theorem isQuotedChar_of_mem_quoteByte {b : UInt8} {c : Char} (h : c ∈ quoteByte b) :
    isQuotedChar c = true := by
  unfold quoteByte at h
  by_cases hbare : isUnreserved b = true
  · rw [if_pos hbare, List.mem_singleton] at h
    rw [h]
    exact of_isUnreserved (P := fun b => isQuotedChar (Char.ofNat b.toNat) = true) (by decide) hbare
  · rw [if_neg hbare] at h
    by_cases hblank : b.toNat = 32
    · rw [if_pos hblank, List.mem_singleton] at h
      rw [h]
      decide
    · have hlt := b.toNat_lt
      rw [if_neg hblank, List.mem_cons, List.mem_cons, List.mem_singleton] at h
      rcases h with rfl | rfl | rfl
      · decide
      · exact isQuotedChar_upperHexDigit (by omega)
      · exact isQuotedChar_upperHexDigit (by omega)

theorem isQuotedChar_of_mem {s : String} {c : Char} (h : c ∈ quoteText s) : isQuotedChar c = true := by
  obtain ⟨b, -, hc⟩ := List.mem_flatMap.mp h
  exact isQuotedChar_of_mem_quoteByte hc

theorem not_mem_quoteText {mark : Char} (h : isQuotedChar mark = false) (s : String) :
    mark ∉ quoteText s := by
  intro hmem
  rw [isQuotedChar_of_mem hmem] at h
  cases h

/-! ## Cutting -/

theorem splitOnChar_of_not_mem {sep : Char} {s : List Char} (h : sep ∉ s) : splitOnChar sep s = [s] := by
  induction s with
  | nil => rfl
  | cons c s ih =>
    simp only [List.mem_cons, not_or] at h
    simp only [splitOnChar, ih h.2, if_neg (Ne.symm h.1)]

theorem splitOnChar_append {sep : Char} {s : List Char} (h : sep ∉ s) (rest : List Char) :
    splitOnChar sep (s ++ sep :: rest) = s :: splitOnChar sep rest := by
  induction s with
  | nil =>
    obtain ⟨part, parts, hrest⟩ := List.exists_cons_of_ne_nil (splitOnChar_ne_nil sep rest)
    simp only [List.nil_append, splitOnChar, hrest, if_true]
  | cons c s ih =>
    simp only [List.mem_cons, not_or] at h
    simp only [List.cons_append, splitOnChar, ih h.2, if_neg (Ne.symm h.1)]

theorem cutAt_append {mark : Char} {s : List Char} (h : mark ∉ s) (rest : List Char) :
    cutAt mark (s ++ mark :: rest) = (s, some rest) := by
  have hkept : ∀ c ∈ s, decide (c ≠ mark) = true := by
    intro c hc
    exact decide_eq_true fun hmark => h (hmark ▸ hc)
  have hmark : decide (mark ≠ mark) = false := by simp
  unfold cutAt
  rw [List.dropWhile_append_of_pos hkept, List.dropWhile_cons_of_neg (by rw [hmark]; decide),
    List.takeWhile_append_of_pos hkept, List.takeWhile_cons_of_neg (by rw [hmark]; decide),
    List.append_nil]

/-! ## Reading a form -/

/-- A part without `=` is a name with an empty value. -/
def formPair (part : List Char) : String × String :=
  (unquote (cutAt '=' part).1, unquote ((cutAt '=' part).2.getD []))

/-- The names and values of a form in their order; empty parts do not count. -/
def form (q : List Char) : List (String × String) :=
  ((splitOnChar '&' q).filter fun part => !part.isEmpty).map formPair

/-- How one name and value stand in a query. -/
def pairChars (pair : String × String) : List Char := quoteText pair.1 ++ '=' :: quoteText pair.2

theorem formPair_pairChars (pair : String × String) : formPair (pairChars pair) = pair := by
  rw [formPair, pairChars, cutAt_append (not_mem_quoteText (by decide) pair.1)]
  show (unquote (quoteText pair.1), unquote (quoteText pair.2)) = pair
  rw [unquote_quoteText, unquote_quoteText]

theorem not_mem_pairChars {mark : Char} (h : isQuotedChar mark = false) (hne : mark ≠ '=')
    (pair : String × String) : mark ∉ pairChars pair := by
  rw [pairChars, List.mem_append, List.mem_cons]
  rintro (hname | hsign | hvalue)
  · exact not_mem_quoteText h _ hname
  · exact hne hsign
  · exact not_mem_quoteText h _ hvalue

theorem query_cons_cons (pair next : String × String) (pairs : List (String × String)) :
    query (pair :: next :: pairs) = pairChars pair ++ '&' :: query (next :: pairs) := by
  show quoteText pair.1 ++ '=' :: quoteText pair.2 ++ '&' :: query (next :: pairs) = _
  rfl

/-- A query is cut into the parts that it was put together from. -/
theorem splitOnChar_query (pair : String × String) (pairs : List (String × String)) :
    splitOnChar '&' (query (pair :: pairs)) = (pair :: pairs).map pairChars := by
  induction pairs generalizing pair with
  | nil => exact splitOnChar_of_not_mem (not_mem_pairChars (by decide) (by decide) pair)
  | cons next pairs ih =>
    rw [query_cons_cons, splitOnChar_append (not_mem_pairChars (by decide) (by decide) pair), ih]
    rfl

theorem pairChars_ne_nil (pair : String × String) : pairChars pair ≠ [] := by
  intro h
  exact absurd (List.append_eq_nil_iff.mp h).2 (List.cons_ne_nil _ _)

/-- What was put into a query is read from it, name by name and value by value. -/
theorem form_query (pairs : List (String × String)) : form (query pairs) = pairs := by
  cases pairs with
  | nil => rfl
  | cons pair pairs =>
    have hfull : ∀ part ∈ (pair :: pairs).map pairChars, (!part.isEmpty) = true := by
      intro part hpart
      obtain ⟨p, -, rfl⟩ := List.mem_map.mp hpart
      rw [Bool.not_eq_true', List.isEmpty_eq_false_iff]
      exact pairChars_ne_nil p
    rw [form, splitOnChar_query, List.filter_eq_self.mpr hfull, List.map_map]
    conv_rhs => rw [← List.map_id (pair :: pairs)]
    exact List.map_congr_left fun p _ => formPair_pairChars p

theorem query_injective {pairs others : List (String × String)} (h : query pairs = query others) :
    pairs = others := by
  rw [← form_query pairs, h, form_query]

/-- A query holds quoted characters and its own two signs. -/
theorem not_mem_query {mark : Char} (h : isQuotedChar mark = false) (hequals : mark ≠ '=')
    (hand : mark ≠ '&') (pairs : List (String × String)) : mark ∉ query pairs := by
  induction pairs with
  | nil => exact List.not_mem_nil
  | cons pair pairs ih =>
    cases pairs with
    | nil => exact not_mem_pairChars h hequals pair
    | cons next pairs =>
      rw [query_cons_cons, List.mem_append, List.mem_cons]
      rintro (hpair | hsign | hrest)
      · exact not_mem_pairChars h hequals pair hpair
      · exact hand hsign
      · exact ih hrest

/-- No character of a query is a blank or a control character. -/
theorem lt_of_mem_query {pairs : List (String × String)} {c : Char} (h : c ∈ query pairs) :
    32 < c.toNat := by
  by_contra hlow
  have hnone : ∀ n < 33, isQuotedChar (Char.ofNat n) = false ∧ Char.ofNat n ≠ '=' ∧
    Char.ofNat n ≠ '&' := by decide
  obtain ⟨hquoted, hequals, hand⟩ := Bytes.of_toNat_lt (c := c)
    (P := fun c => isQuotedChar c = false ∧ c ≠ '=' ∧ c ≠ '&') hnone (by omega)
  exact not_mem_query hquoted hequals hand pairs h

end LedgerClient.Url
