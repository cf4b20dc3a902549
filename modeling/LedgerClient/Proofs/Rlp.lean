import LedgerClient.Proofs.Bytes
import LedgerClient.Rlp

/-!
# Reading the recursive length encoding

The strict reader and the writer are inverse: what was written is read back, and every string that
the reader accepts is the encoding of the items that it gives. So an encoding denotes one list of
items, and equal encodings come from equal items.
-/

namespace LedgerClient.Rlp

open Bytes

/-! ## Parts of a string -/

theorem splitAt?_append (xs ys : Bytes) : splitAt? xs.length (xs ++ ys) = some (xs, ys) := by
  have hle : xs.length ≤ (xs ++ ys).length := by
    rw [List.length_append]
    omega
  rw [splitAt?, if_pos hle, List.take_left, List.drop_left]

theorem eq_append_of_splitAt? {n : Nat} {bs xs ys : Bytes} (h : splitAt? n bs = some (xs, ys)) :
    bs = xs ++ ys ∧ xs.length = n := by
  rw [splitAt?] at h
  split at h
  · next hle =>
    simp only [Option.some.injEq, Prod.mk.injEq] at h
    obtain ⟨rfl, rfl⟩ := h
    exact ⟨(List.take_append_drop n bs).symm, by rw [List.length_take]; omega⟩
  · cases h

theorem readLength_minimal {n : Nat} (h : 56 ≤ n) (rest : Bytes) :
    readLength (minimal n).length (minimal n ++ rest) = some (n, rest) := by
  have hhead : (minimal n).headD 0 ≠ 0 := by
    have hone := headD_minimal n
    cases hm : minimal n with
    | nil => exact absurd hm (minimal_ne_nil (by omega))
    | cons b bs =>
      rw [hm] at hone
      exact hone
  rw [readLength, splitAt?_append]
  simp only [Option.bind_eq_bind, Option.bind_some, toNat_minimal]
  rw [if_neg (by simp only [hhead, false_or]; omega)]

theorem eq_minimal_of_readLength {size n : Nat} {bs rest : Bytes}
    (h : readLength size bs = some (n, rest)) :
    56 ≤ n ∧ bs = minimal n ++ rest ∧ (minimal n).length = size := by
  simp only [readLength, Option.bind_eq_bind, Option.bind_eq_some_iff, Prod.exists] at h
  obtain ⟨digits, rest', hsplit, hread⟩ := h
  obtain ⟨rfl, hsize⟩ := eq_append_of_splitAt? hsplit
  split at hread
  · cases hread
  · next hcheck =>
    simp only [Option.some.injEq, Prod.mk.injEq] at hread
    obtain ⟨rfl, rfl⟩ := hread
    have hhead : digits.headD 1 ≠ 0 := by
      cases digits with
      | nil => exact absurd (Or.inl rfl) hcheck
      | cons b bs => exact fun hb => hcheck (Or.inl hb)
    rw [minimal_toNat hhead]
    exact ⟨by omega, rfl, hsize⟩

/-! ## One item -/

theorem header_short (base : Nat) {n : Nat} (h : n < 56) : header base n = [UInt8.ofNat (base + n)] :=
  if_pos h

theorem header_long (base : Nat) {n : Nat} (h : ¬n < 56) :
    header base n = UInt8.ofNat (base + 55 + (minimal n).length) :: minimal n := if_neg h

/-- A byte below `0x80` is its own encoding. -/
def isBare (bs : Bytes) : Prop := bs.length = 1 ∧ (bs.headD 0).toNat < 0x80

theorem encodeBytes_bare {bs : Bytes} (h : isBare bs) : encodeBytes bs = bs := by
  match bs, h with
  | [b], h => exact if_pos h.2

theorem encodeBytes_headed {bs : Bytes} (h : ¬isBare bs) :
    encodeBytes bs = header 0x80 bs.length ++ bs := by
  match bs with
  | [] => rfl
  | [b] =>
    have hb : ¬b.toNat < 0x80 := fun hb => h ⟨rfl, hb⟩
    rw [encodeBytes, if_neg hb, List.length_singleton]
  | _ :: _ :: _ => rfl

/-- The encoding of a body of either kind. -/
def written (isList : Bool) (body : Bytes) : Bytes :=
  if isList then header 0xc0 body.length ++ body else encodeBytes body

theorem length_minimal_of_long {n : Nat} (h : ¬n < 56) (hn : n < lengthBound) :
    1 ≤ (minimal n).length ∧ (minimal n).length ≤ 8 := by
  have hne := minimal_ne_nil (n := n) (by omega)
  exact ⟨List.length_pos_iff.mpr hne, length_minimal_le hn⟩

theorem readBody_written (isList : Bool) {body : Bytes} (h : body.length < lengthBound)
    (rest : Bytes) : readBody (written isList body ++ rest) = some (isList, body, rest) := by
  by_cases hshort : body.length < 56
  · cases isList with
    | true =>
      have hn : (UInt8.ofNat (0xc0 + body.length)).toNat = 0xc0 + body.length :=
        toNat_byte (by omega)
      rw [written, if_pos rfl, header_short _ hshort, List.append_assoc, List.singleton_append,
        readBody]
      simp only [hn]
      rw [if_neg (by omega), if_neg (by omega), if_neg (by omega), if_pos (by omega),
        Nat.add_sub_cancel_left, splitAt?_append]
      rfl
    | false =>
      by_cases hbare : isBare body
      · match body, hbare with
        | [b], hbare =>
          have hb : b.toNat < 0x80 := hbare.2
          rw [written, if_neg Bool.false_ne_true, encodeBytes_bare hbare, List.singleton_append,
            readBody, if_pos hb]
      · have hn : (UInt8.ofNat (0x80 + body.length)).toNat = 0x80 + body.length :=
          toNat_byte (by omega)
        rw [written, if_neg Bool.false_ne_true, encodeBytes_headed hbare, header_short _ hshort,
          List.append_assoc, List.singleton_append, readBody]
        simp only [hn]
        rw [if_neg (by omega), if_pos (by omega), Nat.add_sub_cancel_left, splitAt?_append]
        exact if_neg hbare
  · obtain ⟨hlow, hhigh⟩ := length_minimal_of_long hshort h
    cases isList with
    | true =>
      have hn : (UInt8.ofNat (0xc0 + 55 + (minimal body.length).length)).toNat =
          0xf7 + (minimal body.length).length := toNat_byte (by omega)
      rw [written, if_pos rfl, header_long _ hshort, List.cons_append, List.cons_append,
        List.append_assoc, readBody]
      simp only [hn]
      rw [if_neg (by omega), if_neg (by omega), if_neg (by omega), if_neg (by omega),
        Nat.add_sub_cancel_left, readLength_minimal (by omega)]
      simp only [Option.bind_eq_bind, Option.bind_some, splitAt?_append]
    | false =>
      have hbare : ¬isBare body := fun hb => hshort (by rw [hb.1]; decide)
      have hn : (UInt8.ofNat (0x80 + 55 + (minimal body.length).length)).toNat =
          0xb7 + (minimal body.length).length := toNat_byte (by omega)
      rw [written, if_neg Bool.false_ne_true, encodeBytes_headed hbare, header_long _ hshort,
        List.cons_append, List.cons_append, List.append_assoc, readBody]
      simp only [hn]
      rw [if_neg (by omega), if_neg (by omega), if_pos (by omega), Nat.add_sub_cancel_left,
        readLength_minimal (by omega)]
      simp only [Option.bind_eq_bind, Option.bind_some, splitAt?_append]

/-- A length read behind the first byte has at most eight digits, and its body follows it. -/
theorem eq_minimal_append_of_readLength {size n : Nat} {bs after body rest : Bytes} (hsize : size ≤ 8)
    (hlength : readLength size bs = some (n, after)) (hsplit : splitAt? n after = some (body, rest)) :
    bs = minimal body.length ++ (body ++ rest) ∧ (minimal body.length).length = size ∧
      56 ≤ body.length ∧ body.length < lengthBound := by
  obtain ⟨hn, rfl, hdigits⟩ := eq_minimal_of_readLength hlength
  obtain ⟨rfl, rfl⟩ := eq_append_of_splitAt? hsplit
  refine ⟨rfl, hdigits, hn, ?_⟩
  calc body.length = toNat (minimal body.length) := (toNat_minimal body.length).symm
    _ < 256 ^ (minimal body.length).length := toNat_lt _
    _ ≤ 256 ^ 8 := Nat.pow_le_pow_right (by decide) (by omega)

/-- The range of the first byte decides which header was read. -/
theorem eq_written_of_readBody {bs body rest : Bytes} {isList : Bool}
    (h : readBody bs = some (isList, body, rest)) :
    bs = written isList body ++ rest ∧ body.length < lengthBound := by
  have hbound : 56 < lengthBound := by decide
  cases bs with
  | nil => cases h
  | cons b tail =>
    have hb : b.toNat < 256 := b.toNat_lt
    have hfirst : ∀ n, n = b.toNat → UInt8.ofNat n = b := fun n hn => by
      rw [hn, UInt8.ofNat_toNat]
    rw [readBody] at h
    split at h
    · next hbare =>
      simp only [Option.some.injEq, Prod.mk.injEq] at h
      obtain ⟨rfl, rfl, rfl⟩ := h
      have hone : isBare [b] := ⟨rfl, hbare⟩
      rw [written, if_neg Bool.false_ne_true, encodeBytes_bare hone, List.length_singleton]
      exact ⟨rfl, by omega⟩
    split at h
    · next hlow hhigh =>
      simp only [Option.bind_eq_bind, Option.bind_eq_some_iff, Prod.exists] at h
      obtain ⟨xs, ys, hsplit, hread⟩ := h
      obtain ⟨rfl, hlen⟩ := eq_append_of_splitAt? hsplit
      split at hread
      · cases hread
      · next hbare =>
        simp only [Option.some.injEq, Prod.mk.injEq] at hread
        obtain ⟨rfl, rfl, rfl⟩ := hread
        rw [written, if_neg Bool.false_ne_true, encodeBytes_headed hbare,
          header_short _ (by omega), hfirst _ (by omega)]
        exact ⟨rfl, by omega⟩
    split at h
    · next hlow hhigh =>
      simp only [Option.bind_eq_bind, Option.bind_eq_some_iff, Prod.exists] at h
      obtain ⟨n, after, hlength, xs, ys, hsplit, hread⟩ := h
      simp only [Option.some.injEq, Prod.mk.injEq] at hread
      obtain ⟨rfl, rfl, rfl⟩ := hread
      obtain ⟨rfl, hsize, hlong, hlt⟩ := eq_minimal_append_of_readLength (by omega) hlength hsplit
      have hbare : ¬isBare xs := by
        intro hx
        rw [hx.1] at hlong
        omega
      rw [written, if_neg Bool.false_ne_true, encodeBytes_headed hbare, header_long _ (by omega),
        hfirst _ (by omega), List.cons_append, List.cons_append, List.append_assoc]
      exact ⟨rfl, hlt⟩
    split at h
    · next hlow hhigh =>
      simp only [Option.bind_eq_bind, Option.bind_eq_some_iff, Prod.exists] at h
      obtain ⟨xs, ys, hsplit, hread⟩ := h
      simp only [Option.some.injEq, Prod.mk.injEq] at hread
      obtain ⟨rfl, rfl, rfl⟩ := hread
      obtain ⟨rfl, hlen⟩ := eq_append_of_splitAt? hsplit
      rw [written, if_pos rfl, header_short _ (by omega), hfirst _ (by omega)]
      exact ⟨rfl, by omega⟩
    · next hlow =>
      simp only [Option.bind_eq_bind, Option.bind_eq_some_iff, Prod.exists] at h
      obtain ⟨n, after, hlength, xs, ys, hsplit, hread⟩ := h
      simp only [Option.some.injEq, Prod.mk.injEq] at hread
      obtain ⟨rfl, rfl, rfl⟩ := hread
      obtain ⟨rfl, hsize, hlong, hlt⟩ := eq_minimal_append_of_readLength (by omega) hlength hsplit
      rw [written, if_pos rfl, header_long _ (by omega), hfirst _ (by omega), List.cons_append,
        List.cons_append, List.append_assoc]
      exact ⟨rfl, hlt⟩

/-! ## Lists of items -/

/-- The kind and the body of an item. -/
def Item.isList : Item → Bool
  | .bytes _ => false
  | .list _ => true

def Item.body : Item → Bytes
  | .bytes bs => bs
  | .list items => encodeAll items

theorem encode_eq_written (item : Item) : encode item = written item.isList item.body := by
  cases item <;> rfl

theorem length_body_of_fits {item : Item} (h : fits item = true) : item.body.length < lengthBound := by
  cases item with
  | bytes bs => exact of_decide_eq_true h
  | list items =>
    rw [fits, Bool.and_eq_true] at h
    exact of_decide_eq_true h.2

theorem written_ne_nil (isList : Bool) (body : Bytes) : written isList body ≠ [] := by
  have hheader : ∀ base, header base body.length ≠ [] := fun base => by
    rw [header]
    split <;> simp
  cases isList with
  | true => simp [written, hheader]
  | false =>
    rw [written, if_neg Bool.false_ne_true]
    by_cases hbare : isBare body
    · rw [encodeBytes_bare hbare]
      intro hnil
      rw [hnil] at hbare
      exact absurd hbare.1 (by decide)
    · rw [encodeBytes_headed hbare]
      simp [hheader]

/-- The body of an item is shorter than what follows its first byte. -/
theorem length_body_lt (isList : Bool) (body : Bytes) :
    body.length < (written isList body).length ∨ isList = false := by
  cases isList with
  | false => exact Or.inr rfl
  | true =>
    left
    have hheader : 0 < (header 0xc0 body.length).length := by
      rw [header]
      split <;> simp
    rw [written, if_pos rfl, List.length_append]
    omega

theorem length_body_le (isList : Bool) (body : Bytes) :
    body.length ≤ (written isList body).length := by
  rcases length_body_lt isList body with hlt | rfl
  · exact Nat.le_of_lt hlt
  · rw [written, if_neg Bool.false_ne_true]
    by_cases hbare : isBare body
    · exact Nat.le_of_eq (congrArg List.length (encodeBytes_bare hbare).symm)
    · rw [encodeBytes_headed hbare, List.length_append]
      exact Nat.le_add_left _ _

mutual

/-- An item fits when its encoding is no longer than a header can tell. -/
theorem fits_of_length_lt (item : Item) (h : (encode item).length < lengthBound) :
    fits item = true := by
  rw [encode_eq_written] at h
  have hbody := Nat.lt_of_le_of_lt (length_body_le item.isList item.body) h
  match item with
  | .bytes bs => exact decide_eq_true hbody
  | .list items =>
    rw [fits, fitsAll_of_length_lt items hbody]
    exact decide_eq_true hbody

theorem fitsAll_of_length_lt (items : List Item) (h : (encodeAll items).length < lengthBound) :
    fitsAll items = true := by
  match items with
  | [] => rfl
  | item :: rest =>
    rw [encodeAll_cons, List.length_append] at h
    rw [fitsAll, fits_of_length_lt item (by omega), fitsAll_of_length_lt rest (by omega)]
    rfl

end

/-- What was written is read back, whatever the fuel beyond the length. -/
theorem readItems_encodeAll (fuel : Nat) (items : List Item) (hfits : fitsAll items = true)
    (hfuel : (encodeAll items).length ≤ fuel) : readItems fuel (encodeAll items) = some items := by
  induction fuel generalizing items with
  | zero =>
    cases items with
    | nil => rfl
    | cons item rest =>
      have hne := written_ne_nil item.isList item.body
      have hpos := List.length_pos_iff.mpr hne
      rw [encodeAll_cons, encode_eq_written, List.length_append] at hfuel
      omega
  | succ fuel ih =>
    cases items with
    | nil => rfl
    | cons item rest =>
      rw [fitsAll, Bool.and_eq_true] at hfits
      have hne := written_ne_nil item.isList item.body
      have hpos := List.length_pos_iff.mpr hne
      have hempty : (written item.isList item.body ++ encodeAll rest).isEmpty = false := by
        simp [hne]
      rw [encodeAll_cons, encode_eq_written, List.length_append] at hfuel
      rw [encodeAll_cons, encode_eq_written, readItems, hempty,
        readBody_written _ (length_body_of_fits hfits.1)]
      have hrest := ih rest hfits.2 (by omega)
      cases item with
      | bytes bs =>
        simp [Item.isList, Item.body, hrest]
      | list inner =>
        have hinner : readItems fuel (encodeAll inner) = some inner := by
          rw [fits, Bool.and_eq_true] at hfits
          apply ih inner hfits.1.1
          have hlt := length_body_lt true (encodeAll inner)
          simp only [Item.isList, Item.body] at hfuel
          simp only [Bool.true_eq_false, or_false] at hlt
          omega
        simp [Item.isList, Item.body, hrest, hinner]

/-- The reader accepts nothing but encodings. -/
theorem encodeAll_of_readItems {fuel : Nat} {bs : Bytes} {items : List Item}
    (h : readItems fuel bs = some items) : encodeAll items = bs ∧ fitsAll items = true := by
  induction fuel generalizing bs items with
  | zero =>
    rw [readItems] at h
    split at h
    · next hempty =>
      cases h
      exact ⟨(List.isEmpty_iff.mp hempty).symm, rfl⟩
    · cases h
  | succ fuel ih =>
    rw [readItems] at h
    split at h
    · next hempty =>
      cases h
      exact ⟨(List.isEmpty_iff.mp hempty).symm, rfl⟩
    · simp only [Option.bind_eq_bind, Option.bind_eq_some_iff, Prod.exists] at h
      obtain ⟨isList, body, rest, hbody, hread⟩ := h
      obtain ⟨rfl, hlen⟩ := eq_written_of_readBody hbody
      cases isList with
      | false =>
        simp only [Bool.false_eq_true, if_false, Option.bind_some, Option.bind_eq_some_iff,
          Option.pure_def, Option.some.injEq] at hread
        obtain ⟨others, hothers, rfl⟩ := hread
        obtain ⟨hrest, hrestFits⟩ := ih hothers
        have hone : fits (.bytes body) = true := decide_eq_true hlen
        exact ⟨by rw [encodeAll_cons, hrest]; rfl, by rw [fitsAll, hone, hrestFits]; rfl⟩
      | true =>
        simp only [if_true, Option.bind_eq_some_iff, Option.map_eq_some_iff, Option.pure_def,
          Option.some.injEq] at hread
        obtain ⟨item, ⟨inner, hinner, rfl⟩, others, hothers, rfl⟩ := hread
        obtain ⟨hrest, hrestFits⟩ := ih hothers
        obtain ⟨rfl, hinnerFits⟩ := ih hinner
        have hone : fits (.list inner) = true := by
          rw [fits, hinnerFits, decide_eq_true hlen]
          rfl
        exact ⟨by rw [encodeAll_cons, hrest]; rfl, by rw [fitsAll, hone, hrestFits]; rfl⟩

theorem readAll_encodeAll {items : List Item} (h : fitsAll items = true) :
    readAll (encodeAll items) = some items :=
  readItems_encodeAll _ items h (Nat.le_refl _)

theorem encodeAll_of_readAll {bs : Bytes} {items : List Item} (h : readAll bs = some items) :
    encodeAll items = bs ∧ fitsAll items = true := encodeAll_of_readItems h

/-- Items that have an encoding are determined by it. -/
theorem encodeAll_injective {xs ys : List Item} (hx : fitsAll xs = true) (hy : fitsAll ys = true)
    (h : encodeAll xs = encodeAll ys) : xs = ys := by
  have hread := readAll_encodeAll hx
  rw [h, readAll_encodeAll hy] at hread
  exact (Option.some.inj hread).symm

end LedgerClient.Rlp
