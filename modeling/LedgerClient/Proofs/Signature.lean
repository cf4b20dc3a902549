import LedgerClient.Proofs.Bytes
import LedgerClient.Proofs.Number.Literal
import LedgerClient.Proofs.Result
import LedgerClient.Signature.Basic

/-!
# Signatures as dictionaries and as bytes

A scalar is an integer, a hexadecimal numeral behind a marker or a decimal numeral, each text with blanks
around it, and all ways to write one number are read alike. So the dictionary of a signature is read as the
same signature when its scalars are not negative: a negative scalar has its sign in front of the marker,
where the reader expects none. In the packed form each part has a fixed place, and a part that does not fit
its place is refused.
-/

namespace LedgerClient.Signature

open Integer (Numeral ofDigits)

/-! ## Scalars -/

/-- The number that the text of a scalar denotes, without its blanks. -/
def numberOf? (cs : List Char) : Option Int :=
  match cs with
  | '0' :: x :: rest =>
    if x = 'x' || x = 'X' then
      Integer.read? 16 (if rest.isEmpty then "0" else String.ofList rest)
    else Integer.read? 10 (String.ofList cs)
  | _ => Integer.read? 10 (String.ofList cs)

theorem scalar_text (name s : String) : scalar name (.text s) =
    match numberOf? (Text.trimChars s.toList) with
    | some n => .ok n
    | none => .error .badValue := rfl

theorem scalar_of_surrounded (name : String) {before cs after : List Char} {n : Int}
    (hbefore : ∀ c ∈ before, Text.isBlank c = true) (hcs : ∀ c ∈ cs, Text.isBlank c = false)
    (hafter : ∀ c ∈ after, Text.isBlank c = true) (hn : numberOf? cs = some n) :
    scalar name (.text (String.ofList (before ++ cs ++ after))) = .ok n := by
  rw [scalar_text, String.toList_ofList, Text.trimChars, Text.trimBoth_surrounded hbefore hcs hafter, hn]

section

variable {x : Char} {cs : List Char} {ds : List Nat}

theorem numberOf?_hexadecimal (hx : x = 'x' ∨ x = 'X') (hcs : Numeral 16 cs ds) :
    numberOf? ('0' :: x :: cs) = some (ofDigits 16 ds : Int) := by
  have hmarker : (decide (x = 'x') || decide (x = 'X')) = true := by
    rcases hx with rfl | rfl <;> rfl
  have hnonempty : cs.isEmpty = false := by
    cases hcs <;> rfl
  simp only [numberOf?, hmarker, if_true, hnonempty, Bool.false_eq_true, if_false]
  exact Integer.read?_of_numeral hcs (fun h => by cases h)

theorem numberOf?_decimal (hcs : Numeral 10 cs ds) (hlen : ds.length ≤ Integer.digitLimit) :
    numberOf? cs = some (ofDigits 10 ds : Int) := by
  have hread := Integer.read?_of_numeral hcs fun _ => hlen
  unfold numberOf?
  split
  · next x rest =>
    -- the letter of a marker is neither a digit nor an underscore
    obtain ⟨d, others, -, hcontinues, -⟩ := Integer.numeral_cons_iff.mp hcs
    have hmarker : ¬(decide (x = 'x') || decide (x = 'X')) = true := by
      rw [Bool.or_eq_true, decide_eq_true_eq, decide_eq_true_eq]
      intro hx
      rcases hcontinues.head rfl with rfl | ⟨e, he⟩
      · revert hx
        decide
      · rcases hx with rfl | rfl <;> cases he
    rw [if_neg hmarker, hread]
  · exact hread

end

/-- The ways to write a number as a scalar. -/
inductive Spells : Int → Value → Prop where
  | int (n : Int) : Spells n (.int n)
  | hexadecimal {before cs after : List Char} {x : Char} {ds : List Nat}
      (hbefore : ∀ c ∈ before, Text.isBlank c = true) (hx : x = 'x' ∨ x = 'X')
      (hcs : Numeral 16 cs ds) (hafter : ∀ c ∈ after, Text.isBlank c = true) :
      Spells (ofDigits 16 ds) (.text (String.ofList (before ++ ('0' :: x :: cs) ++ after)))
  | decimal {before cs after : List Char} {ds : List Nat}
      (hbefore : ∀ c ∈ before, Text.isBlank c = true) (hcs : Numeral 10 cs ds)
      (hlen : ds.length ≤ Integer.digitLimit) (hafter : ∀ c ∈ after, Text.isBlank c = true) :
      Spells (ofDigits 10 ds) (.text (String.ofList (before ++ cs ++ after)))

theorem Spells.scalar_eq {n : Int} {value : Value} (h : Spells n value) (name : String) :
    scalar name value = .ok n := by
  cases h with
  | int n => exact scalar_int name n
  | @hexadecimal before cs after x ds hbefore hx hcs hafter =>
    have hletter : Text.isBlank x = false := by
      rcases hx with rfl | rfl <;> decide
    have hkept : ∀ c ∈ '0' :: x :: cs, Text.isBlank c = false :=
      List.forall_mem_cons.mpr ⟨by decide, List.forall_mem_cons.mpr
        ⟨hletter, fun c hc => (hcs.isInner c hc).1⟩⟩
    exact scalar_of_surrounded name hbefore hkept hafter (numberOf?_hexadecimal hx hcs)
  | decimal hbefore hcs hlen hafter =>
    exact scalar_of_surrounded name hbefore (fun c hc => (hcs.isInner c hc).1) hafter
      (numberOf?_decimal hcs hlen)

theorem spells_hexadecimal (n : Nat) : Spells n (.text (Integer.hexadecimal n)) := by
  obtain ⟨ds, hds, hvalue⟩ := Integer.exists_numeral_toDigits n
  have htext : Integer.hexadecimal n =
      String.ofList ([] ++ ('0' :: 'x' :: Nat.toDigits 16 n) ++ []) := by
    rw [Integer.hexadecimal, decide_eq_false (Int.not_lt.mpr (Int.natCast_nonneg n)),
      List.nil_append, List.append_nil]
    rfl
  have hspells := Spells.hexadecimal (List.forall_mem_nil _) (.inl rfl) hds (List.forall_mem_nil _)
  rwa [← htext, hvalue] at hspells

/-! ## The dictionary -/

theorem ofDict_of_spelled {entries : List (Value × Value)} {r s v : Int} {rText sText vText : Value}
    (hr : Value.lookup "r" entries = some rText) (hrText : Spells r rText)
    (hs : Value.lookup "s" entries = some sText) (hsText : Spells s sText)
    (hv : Value.lookup "v" entries = some vText) (hvText : Spells v vText) :
    ofDict (.dict entries) = .ok ⟨r, s, v⟩ := by
  simp only [ofDict, bind_eq_ok, pure_eq_ok]
  refine ⟨rText, ?_, r, hrText.scalar_eq "r", sText, ?_, s, hsText.scalar_eq "s", vText, ?_, v,
    hvText.scalar_eq "v", rfl⟩
  · simp only [Value.require, hr]
  · simp only [Value.require, hs]
  · simp only [Value.require, hv]

theorem ofDict_toDict {sig : Signature} (hr : 0 ≤ sig.r) (hs : 0 ≤ sig.s) :
    ofDict sig.toDict = .ok sig := by
  obtain ⟨r, s, v⟩ := sig
  obtain ⟨r, rfl⟩ := Int.eq_ofNat_of_zero_le hr
  obtain ⟨s, rfl⟩ := Int.eq_ofNat_of_zero_le hs
  exact ofDict_of_spelled rfl (spells_hexadecimal r) rfl (spells_hexadecimal s) rfl (.int v)

/-! ## The packed form -/

def toBytes (sig : Signature) : Except Fault Bytes := bytesOf (.int sig.r) (.int sig.s) (.int sig.v)

/-- Each part has room in its place. -/
structure Fits (sig : Signature) : Prop where
  r : 0 ≤ sig.r ∧ sig.r < 2 ^ 256
  s : 0 ≤ sig.s ∧ sig.s < 2 ^ 256
  v : 0 ≤ sig.v ∧ sig.v < 256

/-- The bytes hold each part at its place, most significant byte first. -/
structure Packs (sig : Signature) (bs : Bytes) : Prop where
  length : bs.length = 65
  r : (Bytes.toNat (bs.take 32) : Int) = sig.r
  s : (Bytes.toNat ((bs.drop 32).take 32) : Int) = sig.s
  v : (Bytes.toNat (bs.drop 64) : Int) = sig.v

theorem Packs.unique {a b : Signature} {bs : Bytes} (ha : a.Packs bs) (hb : b.Packs bs) : a = b := by
  obtain ⟨r, s, v⟩ := a
  obtain ⟨r', s', v'⟩ := b
  have hr : r = r' := ha.r.symm.trans hb.r
  have hs : s = s' := ha.s.symm.trans hb.s
  have hv : v = v' := ha.v.symm.trans hb.v
  rw [hr, hs, hv]

theorem scalarBytes_of_fits {n : Int} (h : 0 ≤ n ∧ n < 2 ^ 256) :
    scalarBytes (.int n) = .ok (Bytes.ofNat 32 n.toNat) :=
  if_pos ⟨h.1, by omega⟩

theorem scalarBytes_of_not_fits {n : Int} (h : ¬(0 ≤ n ∧ n < 2 ^ 256)) :
    scalarBytes (.int n) = .error .overflow :=
  if_neg fun hn => h ⟨hn.1, by omega⟩

theorem toNat_scalar {n : Int} (h : 0 ≤ n ∧ n < 2 ^ 256) :
    (Bytes.toNat (Bytes.ofNat 32 n.toNat) : Int) = n := by
  have hlt : n.toNat < 256 ^ 32 := by
    have hwidth : (256 : Nat) ^ 32 = 2 ^ 256 := by decide
    rw [hwidth]
    omega
  rw [Bytes.toNat_ofNat hlt]
  exact Int.toNat_of_nonneg h.1

theorem toNat_indicator {n : Int} (h : 0 ≤ n ∧ n < 256) :
    (Bytes.toNat [UInt8.ofNat n.toNat] : Int) = n := by
  have hbyte : Bytes.toNat [UInt8.ofNat n.toNat] = n.toNat :=
    (Nat.zero_add _).trans (Bytes.toNat_byte (by omega))
  rw [hbyte]
  exact Int.toNat_of_nonneg h.1

theorem exists_packs {sig : Signature} (h : sig.Fits) : ∃ bs, sig.toBytes = .ok bs ∧ sig.Packs bs := by
  have hbytes : sig.toBytes = .ok (Bytes.ofNat 32 sig.r.toNat ++ Bytes.ofNat 32 sig.s.toNat ++
      [UInt8.ofNat sig.v.toNat]) := by
    simp only [toBytes, bytesOf, bind_eq_ok, pure_eq_ok]
    exact ⟨_, scalarBytes_of_fits h.r, _, scalarBytes_of_fits h.s, _, if_pos h.v, rfl⟩
  refine ⟨_, hbytes, ?_, ?_, ?_, ?_⟩
  · rw [List.length_append, List.length_append, Bytes.ofNat_length, Bytes.ofNat_length]
    rfl
  · rw [List.append_assoc, List.take_left' (Bytes.ofNat_length 32 _)]
    exact toNat_scalar h.r
  · rw [List.append_assoc, List.drop_left' (Bytes.ofNat_length 32 _),
      List.take_left' (Bytes.ofNat_length 32 _)]
    exact toNat_scalar h.s
  · have hlen : (Bytes.ofNat 32 sig.r.toNat ++ Bytes.ofNat 32 sig.s.toNat).length = 64 := by
      rw [List.length_append, Bytes.ofNat_length, Bytes.ofNat_length]
    rw [List.drop_left' hlen]
    exact toNat_indicator h.v

/-- The first part without room decides the fault. -/
theorem toBytes_of_not_fits {sig : Signature} (h : ¬sig.Fits) :
    sig.toBytes = .error .overflow ∨ sig.toBytes = .error .badValue := by
  simp only [toBytes, bytesOf]
  by_cases hr : 0 ≤ sig.r ∧ sig.r < 2 ^ 256
  · rw [scalarBytes_of_fits hr]
    by_cases hs : 0 ≤ sig.s ∧ sig.s < 2 ^ 256
    · rw [scalarBytes_of_fits hs]
      have hv : ¬(0 ≤ sig.v ∧ sig.v < 256) := fun hv => h ⟨hr, hs, hv⟩
      have hbyte : (Value.int sig.v).byteOf = .error .badValue := if_neg hv
      rw [hbyte]
      exact .inr rfl
    · rw [scalarBytes_of_not_fits hs]
      exact .inl rfl
  · rw [scalarBytes_of_not_fits hr]
    exact .inl rfl

theorem packs_of_toBytes {sig : Signature} {bs : Bytes} (h : sig.toBytes = .ok bs) : sig.Packs bs := by
  by_cases hfits : sig.Fits
  · obtain ⟨bs', hbs', hpacks⟩ := exists_packs hfits
    rw [h] at hbs'
    cases hbs'
    exact hpacks
  · rcases toBytes_of_not_fits hfits with herror | herror
    · rw [h] at herror
      cases herror
    · rw [h] at herror
      cases herror

/-! ## Both forms -/

/-- The dictionary of a signature is read back, and so is every other way to write its parts; the packed
form exists for the signatures whose parts have room, holds each part whole, and tells them apart. -/
theorem dictionary_and_bytes_settle :
    (∀ sig : Signature, 0 ≤ sig.r → 0 ≤ sig.s → ofDict sig.toDict = .ok sig) ∧
    (∀ (entries : List (Value × Value)) (sig : Signature) (r s v : Value),
      Value.lookup "r" entries = some r → Value.lookup "s" entries = some s →
      Value.lookup "v" entries = some v → Spells sig.r r → Spells sig.s s → Spells sig.v v →
      ofDict (.dict entries) = .ok sig) ∧
    (∀ sig : Signature, sig.Fits → ∃ bs, sig.toBytes = .ok bs ∧ sig.Packs bs) ∧
    (∀ sig : Signature, ¬sig.Fits → sig.toBytes = .error .overflow ∨ sig.toBytes = .error .badValue) ∧
    ∀ (a b : Signature) (bs : Bytes), a.toBytes = .ok bs → b.toBytes = .ok bs → a = b := by
  refine ⟨fun sig => ofDict_toDict, ?_, fun sig => exists_packs, fun sig => toBytes_of_not_fits, ?_⟩
  · intro entries sig r s v hr hs hv hrText hsText hvText
    exact ofDict_of_spelled hr hrText hs hsText hv hvText
  · intro a b bs ha hb
    exact (packs_of_toBytes ha).unique (packs_of_toBytes hb)

/-- Two parts as texts with blanks and zeros in front, and the third as an integer. -/
def mixedEntries : List (Value × Value) :=
  [(.text "v", .int 27), (.text "s", .text " 0042"), (.text "r", .text "\t0X0Ff\n")]

theorem codec_mixed : ofDict (.dict mixedEntries) = .ok ⟨255, 42, 27⟩ ∧
    ofDict (toDict ⟨255, 42, 27⟩) = .ok ⟨255, 42, 27⟩ ∧
    (∃ bs, toBytes ⟨255, 42, 27⟩ = .ok bs ∧ Packs ⟨255, 42, 27⟩ bs) ∧
    (toBytes ⟨255, 42, 256⟩ = .error .overflow ∨ toBytes ⟨255, 42, 256⟩ = .error .badValue) := by
  obtain ⟨hread, hmixed, hpacks, hrefused, hunique⟩ := dictionary_and_bytes_settle
  have hr : Spells 255 (.text "\t0X0Ff\n") := by
    have hdigits : Numeral 16 ['0', 'F', 'f'] [0, 15, 15] := .cons rfl (.cons rfl (.last rfl))
    exact @Spells.hexadecimal ['\t'] _ ['\n'] _ _ (List.forall_mem_singleton.mpr rfl) (.inr rfl) hdigits
      (List.forall_mem_singleton.mpr rfl)
  have hs : Spells 42 (.text " 0042") := by
    have hdigits : Numeral 10 ['0', '0', '4', '2'] [0, 0, 4, 2] :=
      .cons rfl (.cons rfl (.cons rfl (.last rfl)))
    exact @Spells.decimal [' '] _ [] _ (List.forall_mem_singleton.mpr rfl) hdigits (by decide)
      (List.forall_mem_nil _)
  refine ⟨hmixed mixedEntries ⟨255, 42, 27⟩ _ _ _ rfl rfl rfl hr hs (.int 27),
    hread _ (by decide) (by decide), hpacks _ ⟨by decide, by decide, by decide⟩, hrefused _ ?_⟩
  intro h
  exact absurd h.v.2 (by decide)

end LedgerClient.Signature
