import LedgerClient.Json.Reader
import LedgerClient.Json.Writer
import LedgerClient.Proofs.Number.Integer

/-!
# Texts and integers in JSON are read back

Each character of a text is written so that the reader takes it in one step. The digits of an
integer are read up to the first character that can stand behind a value: a comma or a closing
bracket.
-/

namespace LedgerClient.Json

/-! ## Texts -/

theorem hexQuad_hexPadded {n : Nat} (h : n < 0x10000) (rest : List Char) :
    hexQuad (Text.hexPadded 4 n ++ rest) = some (n, rest) := by
  have hdigit : ∀ m, Bytes.hexValue? (Bytes.hexDigit (m % 16)) = some (m % 16) :=
    fun m => Bytes.hexValue?_hexDigit (Nat.mod_lt m (by decide))
  simp only [Text.hexPadded, List.nil_append, List.cons_append, hexQuad, hdigit, Option.bind_eq_bind,
    Option.bind_some, Option.pure_def]
  congr 2
  omega

theorem readUnit_of_control {n : Nat} (h : n < 0x20) (rest : List Char) :
    readUnit n rest = (.char (Char.ofNat n), rest) := by
  have hhigh : isHighHalf n = false := by
    rw [isHighHalf, decide_eq_false (by omega), Bool.false_and]
  have hhalf : ¬(0xD800 ≤ n ∧ n < 0xE000) := by omega
  simp only [readUnit, hhigh, unitGlyph, dif_neg hhalf, Bool.false_eq_true, if_false]

theorem readString_unit (fuel : Nat) (done : List Glyph) {s rest : List Char} {n : Nat}
    (h : hexQuad s = some (n, rest)) :
    readString (fuel + 1) done ('\\' :: 'u' :: s) =
      readString fuel ((readUnit n rest).1 :: done) (readUnit n rest).2 := by
  simp only [readString, h]
  rfl

/-- A written character is read in one step. -/
theorem readString_escapeChar (fuel : Nat) (done : List Glyph) (rest : List Char) (c : Char) :
    readString (fuel + 1) done (escapeChar c ++ rest) = readString fuel (.char c :: done) rest := by
  unfold escapeChar
  split
  · next h => rw [h]; rfl
  split
  · next h => rw [h]; rfl
  split
  · next h => rw [h]; rfl
  split
  · next h => rw [h]; rfl
  split
  · next h => rw [h]; rfl
  split
  · next h => rw [← Char.ofNat_toNat c, h]; rfl
  split
  · next h => rw [← Char.ofNat_toNat c, h]; rfl
  split
  · next h =>
    rw [List.cons_append, List.cons_append, readString_unit _ _ (hexQuad_hexPadded (by omega) rest),
      readUnit_of_control h, Char.ofNat_toNat]
  · next hquote hbackslash _ _ _ _ _ hcontrol =>
    rw [List.singleton_append, readString.eq_def]
    simp only [hquote, hbackslash, hcontrol, if_false]

theorem readString_escaped (s : List Char) {fuel : Nat} (h : s.length < fuel)
    (done : List Glyph) (rest : List Char) :
    readString fuel done (s.flatMap escapeChar ++ '"' :: rest) =
      some (done.reverse ++ s.map .char, rest) := by
  induction s generalizing fuel done with
  | nil =>
    cases fuel with
    | zero => exact absurd h (Nat.not_lt_zero _)
    | succ fuel =>
      rw [List.map_nil, List.append_nil]
      rfl
  | cons c s ih =>
    cases fuel with
    | zero => exact absurd h (Nat.not_lt_zero _)
    | succ fuel =>
      rw [List.flatMap_cons, List.append_assoc, readString_escapeChar,
        ih (Nat.lt_of_succ_lt_succ h), List.reverse_cons, List.append_assoc]
      rfl

theorem escapeChar_ne_nil (c : Char) : escapeChar c ≠ [] := by
  unfold escapeChar
  repeat' split
  all_goals exact List.cons_ne_nil _ _

theorem length_le_length_escaped (s : List Char) : s.length ≤ (s.flatMap escapeChar).length := by
  induction s with
  | nil => exact Nat.le_refl 0
  | cons c s ih =>
    have hpos := List.length_pos_iff.mpr (escapeChar_ne_nil c)
    rw [List.flatMap_cons, List.length_append, List.length_cons]
    omega

/-- The reader's fuel is the length of what stands behind the opening quote. -/
theorem readString_stringChars (s rest : List Char) :
    readString ((s.flatMap escapeChar ++ '"' :: rest).length + 1) []
      (s.flatMap escapeChar ++ '"' :: rest) = some (s.map .char, rest) := by
  refine readString_escaped s ?_ [] rest
  have hlen := length_le_length_escaped s
  rw [List.length_append]
  omega

/-! ## Integers -/

/-- What may follow a value. -/
def Ends : List Char → Prop
  | [] => True
  | c :: _ => c = ',' ∨ c = ']' ∨ c = '\x7d'

theorem not_isDigit_of_ends {c : Char} {rest : List Char} (h : Ends (c :: rest)) :
    isDigit c = false := by
  rcases h with rfl | rfl | rfl <;> decide

variable {ds : List Nat} {rest : List Char}

theorem takeWhile_digits (h : ∀ d ∈ ds, d < 10) (hrest : Ends rest) :
    (ds.map Nat.digitChar ++ rest).takeWhile isDigit = ds.map Nat.digitChar ∧
      (ds.map Nat.digitChar ++ rest).dropWhile isDigit = rest := by
  have hall : ∀ c ∈ ds.map Nat.digitChar, isDigit c = true := by
    intro c hc
    obtain ⟨d, hd, rfl⟩ := List.mem_map.mp hc
    exact Floating.isDigit_digitChar (h d hd)
  rw [List.takeWhile_append_of_pos hall, List.dropWhile_append_of_pos hall]
  cases rest with
  | nil => exact ⟨List.append_nil _, rfl⟩
  | cons c rest =>
    have hc := not_isDigit_of_ends hrest
    rw [List.takeWhile_cons_of_neg (by rw [hc]; decide), List.dropWhile_cons_of_neg (by rw [hc]; decide),
      List.append_nil]
    exact ⟨rfl, rfl⟩

/-- The digits before the point; a zero stands alone. -/
theorem readWhole_digits (h : ∀ d ∈ ds, d < 10) (hne : ds ≠ []) (hhead : ds.head? = some 0 → ds = [0])
    (hrest : Ends rest) :
    readWhole (ds.map Nat.digitChar ++ rest) = some (ds.map Nat.digitChar, rest) := by
  obtain ⟨htake, hdrop⟩ := takeWhile_digits h hrest
  cases ds with
  | nil => exact absurd rfl hne
  | cons d ds =>
    by_cases hd : d = 0
    · subst hd
      rw [(List.cons.inj (hhead rfl)).2]
      rfl
    · have hzero : Nat.digitChar d ≠ '0' := fun hc => hd (Nat.digitChar_eq_zero.mp hc)
      rw [List.map_cons, List.cons_append] at htake hdrop ⊢
      unfold readWhole
      split
      · next hc => exact absurd (List.cons.inj hc).1 hzero
      · simp only [htake, hdrop, List.isEmpty_cons, Bool.false_eq_true, if_false]

theorem readFraction_of_ends (h : Ends rest) : readFraction rest = (none, rest) := by
  unfold readFraction
  split
  · rcases h with h | h | h <;> cases h
  · rfl

theorem readPower_of_ends (h : Ends rest) : readPower rest = (none, rest) := by
  cases rest with
  | nil => rfl
  | cons c rest => rcases h with rfl | rfl | rfl <;> rfl

/-- No word begins with a digit, and the one with a minus goes on with a letter. -/
theorem readWord_digit {d : Nat} (h : d < 10) (s : List Char) :
    readWord (Nat.digitChar d :: s) = none ∧ readWord ('-' :: Nat.digitChar d :: s) = none := by
  match d, h with
  | 0, _ | 1, _ | 2, _ | 3, _ | 4, _ | 5, _ | 6, _ | 7, _ | 8, _ | 9, _ => exact ⟨rfl, rfl⟩

theorem number_digits (negative : Bool) (h : ∀ d ∈ ds, d < 10) (hlen : ds.length ≤ Integer.digitLimit) :
    number negative (ds.map Nat.digitChar) none none =
      some (.int (if negative then -(Integer.ofDigits 10 ds : Int) else Integer.ofDigits 10 ds)) := by
  simp only [number, List.length_map, if_neg (Nat.not_lt.mpr hlen),
    Floating.digitsValue_digits h]

/-- A numeral that begins with a digit is not negative. -/
theorem readNumber_digit {d : Nat} (h : d < 10) (s : List Char) :
    readNumber (Nat.digitChar d :: s) = (readWhole (Nat.digitChar d :: s)).bind fun r =>
      (number false r.1 (readFraction r.2).1 (readPower (readFraction r.2).2).1).bind fun v =>
        some (v, (readPower (readFraction r.2).2).2) := by
  match d, h with
  | 0, _ | 1, _ | 2, _ | 3, _ | 4, _ | 5, _ | 6, _ | 7, _ | 8, _ | 9, _ => rfl

theorem readScalar_of_readWord {s : List Char} (h : readWord s = none) :
    readScalar s = readNumber s := by
  rw [readScalar, h]

/-- An integer within the limit is read up to the end of its digits. -/
theorem readScalar_decimal {n : Int} (hn : n.natAbs < Integer.textBound) (hrest : Ends rest) :
    readScalar ((Integer.decimal n).toList ++ rest) = some (.int n, rest) := by
  obtain ⟨ds, hds, hall, hvalue, hne, hhead⟩ := Integer.exists_digits (by decide : 1 < 10) n.natAbs
  have hlen : ds.length ≤ Integer.digitLimit := by
    rw [← List.length_map (f := Nat.digitChar), ← hds]
    refine (Nat.length_toDigits_le_iff (by decide) (by decide)).mpr ?_
    unfold Integer.textBound at hn
    exact hn
  have hwhole := readWhole_digits hall hne hhead hrest
  have hfraction := readFraction_of_ends hrest
  have hpower := readPower_of_ends hrest
  rw [Integer.decimal, String.toList_ofList, Integer.decimalChars, hds]
  obtain ⟨d, es, rfl⟩ := List.exists_cons_of_ne_nil hne
  have hd := hall d List.mem_cons_self
  obtain ⟨hword, hminus⟩ := readWord_digit hd (es.map Nat.digitChar ++ rest)
  by_cases hneg : n < 0
  · have hnumber := number_digits true hall hlen
    rw [hvalue, if_pos rfl, show -(n.natAbs : Int) = n by omega] at hnumber
    rw [decide_eq_true hneg]
    rw [List.map_cons, List.cons_append] at hwhole
    rw [List.map_cons] at hnumber
    rw [Integer.signedChars, if_pos rfl, List.map_cons, List.cons_append, List.cons_append,
      readScalar_of_readWord hminus]
    simp only [readNumber, hwhole, hfraction, hpower, hnumber, Option.bind_eq_bind, Option.bind_some,
      Option.pure_def]
  · have hnumber := number_digits false hall hlen
    rw [hvalue, if_neg Bool.false_ne_true, show (n.natAbs : Int) = n by omega] at hnumber
    rw [decide_eq_false hneg]
    rw [List.map_cons, List.cons_append] at hwhole
    rw [List.map_cons] at hnumber
    rw [Integer.signedChars, if_neg Bool.false_ne_true, List.map_cons, List.cons_append,
      readScalar_of_readWord hword]
    simp only [readNumber_digit hd, hwhole, hfraction, hpower, hnumber, Option.bind_some]

end LedgerClient.Json
