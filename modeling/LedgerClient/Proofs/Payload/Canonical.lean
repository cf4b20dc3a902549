import LedgerClient.Proofs.Payload.Content
import LedgerClient.Proofs.Rlp
import LedgerClient.Proofs.Text.Utf8

/-!
# The canonical format, read and written

A strict reader takes the values of a layout off the items of a byte string: numbers without a
leading zero and within the width of their field, addresses of twenty bytes, well-formed texts, and
names of the field's own family. Every payload is encoded in this format, and every byte string that
is read is the encoding of the payload read from it.
-/

namespace LedgerClient

namespace Family

def ofLabel? (family : Family) (label : String) : Option Choice :=
  family.members.find? fun c => c.label = label

theorem family_of_mem_members {family : Family} {c : Choice} (h : c ∈ family.members) :
    c.family = family := by
  have hall : ∀ c ∈ family.members, c.family = family := by cases family <;> decide
  exact hall c h

theorem label_of_ofLabel? {family : Family} {label : String} {c : Choice}
    (h : family.ofLabel? label = some c) : c.label = label ∧ c.family = family := by
  have hlabel := List.find?_some h
  exact ⟨of_decide_eq_true hlabel, family_of_mem_members (List.mem_of_find?_eq_some h)⟩

theorem exists_ofLabel? (c : Choice) : ∃ d, c.family.ofLabel? c.label = some d := by
  have hsome : (c.family.ofLabel? c.label).isSome := by
    rw [ofLabel?, List.find?_isSome]
    exact ⟨c, c.mem_members, decide_eq_true rfl⟩
  exact Option.isSome_iff_exists.mp hsome

end Family

namespace FieldKind

open Content

/-! ## Reading one field -/

/-- A number of at most `width` bytes without a leading zero. -/
def readNumber? (width : Nat) (bs : Bytes) : Option Nat :=
  if bs.length ≤ width ∧ bs.headD 1 ≠ 0 then some bs.toNat else none

/-- A list of two texts. -/
def readEntry? : Rlp.Item → Option Value
  | .list [.bytes key, .bytes value] => do
    let k ← Text.ofStrictUtf8? key
    let x ← Text.ofStrictUtf8? value
    return .pair (.text k) (.text x)
  | _ => none

def readEntries? : List Rlp.Item → Option (List Value)
  | [] => some []
  | item :: rest => do
    let pair ← readEntry? item
    let others ← readEntries? rest
    return pair :: others

/-- The byte string at the front of some items, and the items behind it. -/
def takeBytes? : List Rlp.Item → Option (Bytes × List Rlp.Item)
  | .bytes bs :: rest => some (bs, rest)
  | _ => none

/-- The value at the front of some items, and the items behind it. -/
def read? (kind : FieldKind) (items : List Rlp.Item) : Option (Value × List Rlp.Item) :=
  match kind with
  | .word => do
    let (bs, rest) ← takeBytes? items
    let n ← readNumber? 8 bs
    return (.int n, rest)
  | .amount => do
    let (bs, rest) ← takeBytes? items
    let n ← readNumber? 32 bs
    let a ← TokenAmount.ofInt? n
    return (.amount a, rest)
  | .address => do
    let (bs, rest) ← takeBytes? items
    let a ← Address.ofBytes? bs
    return (.address a, rest)
  | .text => do
    let (bs, rest) ← takeBytes? items
    let s ← Text.ofStrictUtf8? bs
    return (.text s, rest)
  | .choice family => do
    let (bs, rest) ← takeBytes? items
    let label ← Text.ofStrictUtf8? bs
    let c ← family.ofLabel? label
    return (.choice c, rest)
  | .metadata =>
    match items with
    | .list pairs :: rest => do
      let entries ← readEntries? pairs
      return (.tuple entries, rest)
    | _ => none
  | .optionalText => do
    let (flag, rest) ← takeBytes? items
    if flag = [] then some (.null, rest)
    else if flag = [1] then do
      let (bs, rest) ← takeBytes? rest
      let s ← Text.ofStrictUtf8? bs
      return (.text s, rest)
    else none

/-- A choice belongs to the family of its field, and nothing stands in its place. -/
def NamesOwn : FieldKind → Value → Prop
  | .choice family, .choice c => c.family = family
  | .choice _, .member .. => False
  | _, _ => True

theorem readNumber?_minimal {width n : Nat} (h : n < 256 ^ width) :
    readNumber? width (Bytes.minimal n) = some n := by
  rw [readNumber?, if_pos ⟨Bytes.length_minimal_le h, Bytes.headD_minimal n⟩, Bytes.toNat_minimal]

theorem minimal_of_readNumber? {width n : Nat} {bs : Bytes} (h : readNumber? width bs = some n) :
    Bytes.minimal n = bs ∧ n < 256 ^ width := by
  unfold readNumber? at h
  split at h
  · next hread =>
    cases h
    exact ⟨Bytes.minimal_toNat hread.2,
      Nat.lt_of_lt_of_le (Bytes.toNat_lt bs) (Nat.pow_le_pow_right (by decide) hread.1)⟩
  · cases h

theorem readEntry?_entryItem (pair : String × String) :
    readEntry? (entryItem pair) = some (.pair (.text pair.1) (.text pair.2)) := by
  simp only [entryItem, readEntry?, Text.ofStrictUtf8?_utf8, Option.bind_eq_bind, Option.bind_some,
    Option.pure_def]

theorem readEntries?_map_entryItem (pairs : List (String × String)) :
    ∃ vs, readEntries? (pairs.map entryItem) = some vs ∧ entries? vs = some pairs := by
  induction pairs with
  | nil => exact ⟨[], rfl, rfl⟩
  | cons pair pairs ih =>
    obtain ⟨vs, hvs, hentries⟩ := ih
    refine ⟨.pair (.text pair.1) (.text pair.2) :: vs, ?_, ?_⟩
    · rw [List.map_cons, readEntries?, readEntry?_entryItem, hvs]
      rfl
    · rw [entries?, entry?, hentries]
      rfl

theorem eq_cons_of_takeBytes? {is rest : List Rlp.Item} {bs : Bytes}
    (h : takeBytes? is = some (bs, rest)) : is = .bytes bs :: rest := by
  unfold takeBytes? at h
  split at h
  · cases h
    rfl
  · cases h

/-- The items of a content are read back as a value that says the same. -/
theorem read?_items {kind : FieldKind} {v : Value} {c : Content} (hc : kind.content? v = some c)
    (hholds : kind.Holds c) (hown : kind.NamesOwn v) (rest : List Rlp.Item) :
    ∃ w, kind.read? (c.items ++ rest) = some (w, rest) ∧ kind.content? w = some c := by
  have hshape := shape_of_content? hc
  cases c with
  | number n =>
    cases kind <;> cases hshape
    case word.refl =>
      have hlt : n < 2 ^ 64 := hholds
      have hread : readNumber? 8 (Bytes.minimal n) = some n :=
        readNumber?_minimal (Nat.lt_of_lt_of_eq hlt (by decide))
      refine ⟨.int n, ?_, rfl⟩
      simp only [items, List.singleton_append, read?, takeBytes?, Option.bind_eq_bind,
        Option.bind_some, hread, Option.pure_def]
    case amount.refl =>
      have hlt : n < 2 ^ 256 := hholds
      have hread : readNumber? 32 (Bytes.minimal n) = some n :=
        readNumber?_minimal (Nat.lt_of_lt_of_eq hlt (by decide))
      have hamount : TokenAmount.ofInt? n = some ⟨n, hlt⟩ := TokenAmount.ofInt?_units ⟨n, hlt⟩
      refine ⟨.amount ⟨n, hlt⟩, ?_, rfl⟩
      simp only [items, List.singleton_append, read?, takeBytes?, Option.bind_eq_bind,
        Option.bind_some, hread, hamount, Option.pure_def]
  | address a =>
    cases kind <;> cases hshape
    refine ⟨.address a, ?_, rfl⟩
    simp only [items, List.singleton_append, read?, takeBytes?, Option.bind_eq_bind,
      Option.bind_some, Address.ofBytes?_bytes, Option.pure_def]
  | text s =>
    cases kind <;> cases hshape
    refine ⟨.text s, ?_, rfl⟩
    simp only [items, List.singleton_append, read?, takeBytes?, Option.bind_eq_bind,
      Option.bind_some, Text.ofStrictUtf8?_utf8, Option.pure_def]
  | name label =>
    cases kind <;> cases hshape
    case choice.refl family =>
      have hforeign : isForeign v = false := by
        cases v with
        | member => exact hown.elim
        | _ => rfl
      obtain ⟨choice, rfl, rfl⟩ := exists_choice_of_content? hc hforeign
      obtain rfl : choice.family = family := hown
      obtain ⟨d, hd⟩ := Family.exists_ofLabel? choice
      refine ⟨.choice d, ?_, ?_⟩
      · simp only [items, List.singleton_append, read?, takeBytes?, Option.bind_eq_bind,
          Option.bind_some, Text.ofStrictUtf8?_utf8, hd, Option.pure_def]
      · rw [content?, name?, (Family.label_of_ofLabel? hd).1]
        rfl
  | entries pairs =>
    cases kind <;> cases hshape
    obtain ⟨vs, hvs, hentries⟩ := readEntries?_map_entryItem pairs
    refine ⟨.tuple vs, ?_, ?_⟩
    · simp only [items, List.singleton_append, read?, hvs, Option.bind_eq_bind, Option.bind_some,
        Option.pure_def]
    · rw [content?, hentries]
      rfl
  | note s =>
    cases kind <;> cases hshape
    cases s with
    | none => exact ⟨.null, rfl, rfl⟩
    | some s =>
      refine ⟨.text s, ?_, rfl⟩
      simp only [items, List.cons_append, List.nil_append, read?, takeBytes?, Option.bind_eq_bind,
        Option.bind_some, Text.ofStrictUtf8?_utf8, Option.pure_def]
      rfl

end FieldKind

namespace Payload

open FieldKind Content

/-! ## What is read is what would be written -/

theorem unsigned_int {name : String} {bits n : Nat} (h : n < 2 ^ bits) :
    unsigned name (.int n) bits = .ok n := by
  simp only [unsigned, Int.toNat_natCast]
  rw [if_pos ⟨Int.natCast_nonneg n, h⟩]

/-- An amount counts as its number of units. -/
theorem unsigned_amount (name : String) (a : TokenAmount) (bits : Nat) :
    unsigned name (.amount a) bits = unsigned name (.int a.units) bits := rfl

theorem pairItem_of_readEntry? {name : String} {item : Rlp.Item} {v : Value}
    (h : readEntry? item = some v) : pairItem name v = .ok item := by
  unfold readEntry? at h
  split at h
  · next key value =>
    simp only [Option.bind_eq_bind, Option.bind_eq_some_iff, Option.pure_def, Option.some.injEq] at h
    obtain ⟨k, hk, x, hx, rfl⟩ := h
    rw [← Text.utf8_of_ofStrictUtf8? hk, ← Text.utf8_of_ofStrictUtf8? hx]
    rfl
  · cases h

theorem pairItems_of_readEntries? {name : String} {is : List Rlp.Item} {vs : List Value}
    (h : readEntries? is = some vs) : pairItems name vs = .ok is := by
  induction is generalizing vs with
  | nil =>
    cases h
    rfl
  | cons item is ih =>
    simp only [readEntries?, Option.bind_eq_bind, Option.bind_eq_some_iff, Option.pure_def,
      Option.some.injEq] at h
    obtain ⟨v, hv, others, hothers, rfl⟩ := h
    rw [pairItems, pairItem_of_readEntry? hv, ih hothers]
    rfl

theorem fieldItems_of_present {f : Field} {v : Value} (h : v ≠ .null) :
    fieldItems f v = presentItems f.name f.kind v := by
  cases v with
  | null => exact absurd rfl h
  | _ => rfl

/-- The value that is read contributes the items it was read from, and nothing else. -/
theorem fieldItems_of_read? {f : Field} {v : Value} {is rest : List Rlp.Item}
    (h : f.kind.read? is = some (v, rest)) :
    ∃ front, fieldItems f v = .ok front ∧ is = front ++ rest ∧ f.kind.NamesOwn v := by
  obtain ⟨name, kind, isOptional⟩ := f
  cases kind with
  | word =>
    simp only [read?, Option.bind_eq_bind, Option.bind_eq_some_iff, Option.pure_def,
      Option.some.injEq, Prod.mk.injEq, Prod.exists] at h
    obtain ⟨bs, rest, htake, n, hn, rfl, rfl⟩ := h
    obtain ⟨rfl, hlt⟩ := minimal_of_readNumber? hn
    refine ⟨[.ofNat n], ?_, eq_cons_of_takeBytes? htake, trivial⟩
    rw [fieldItems_of_present (Value.noConfusion ·), presentItems,
      unsigned_int (Nat.lt_of_lt_of_eq hlt (by decide))]
    rfl
  | amount =>
    simp only [read?, Option.bind_eq_bind, Option.bind_eq_some_iff, Option.pure_def,
      Option.some.injEq, Prod.mk.injEq, Prod.exists] at h
    obtain ⟨bs, rest, htake, n, hn, a, ha, rfl, rfl⟩ := h
    obtain ⟨rfl, -⟩ := minimal_of_readNumber? hn
    refine ⟨[.ofNat n], ?_, eq_cons_of_takeBytes? htake, trivial⟩
    rw [fieldItems_of_present (Value.noConfusion ·), presentItems, unsigned_amount,
      unsigned_int a.units_lt, Int.ofNat_inj.mp (TokenAmount.units_of_ofInt? ha)]
    rfl
  | address =>
    simp only [read?, Option.bind_eq_bind, Option.bind_eq_some_iff, Option.pure_def,
      Option.some.injEq, Prod.mk.injEq, Prod.exists] at h
    obtain ⟨bs, rest, htake, a, ha, rfl, rfl⟩ := h
    refine ⟨[.bytes a.bytes], rfl, ?_, trivial⟩
    rw [eq_cons_of_takeBytes? htake, Address.bytes_of_ofBytes? ha]
    rfl
  | text =>
    simp only [read?, Option.bind_eq_bind, Option.bind_eq_some_iff, Option.pure_def,
      Option.some.injEq, Prod.mk.injEq, Prod.exists] at h
    obtain ⟨bs, rest, htake, s, hs, rfl, rfl⟩ := h
    refine ⟨[.bytes (Text.utf8 s)], rfl, ?_, trivial⟩
    rw [eq_cons_of_takeBytes? htake, Text.utf8_of_ofStrictUtf8? hs]
    rfl
  | choice family =>
    simp only [read?, Option.bind_eq_bind, Option.bind_eq_some_iff, Option.pure_def,
      Option.some.injEq, Prod.mk.injEq, Prod.exists] at h
    obtain ⟨bs, rest, htake, label, hlabel, c, hc, rfl, rfl⟩ := h
    obtain ⟨rfl, hfamily⟩ := Family.label_of_ofLabel? hc
    refine ⟨[.bytes (Text.utf8 c.label)], rfl, ?_, hfamily⟩
    rw [eq_cons_of_takeBytes? htake, Text.utf8_of_ofStrictUtf8? hlabel]
    rfl
  | metadata =>
    unfold read? at h
    simp only at h
    split at h
    · next pairs rest =>
      simp only [Option.bind_eq_bind, Option.bind_eq_some_iff, Option.pure_def, Option.some.injEq,
        Prod.mk.injEq] at h
      obtain ⟨vs, hvs, rfl, rfl⟩ := h
      refine ⟨[.list pairs], ?_, rfl, trivial⟩
      rw [fieldItems_of_present (Value.noConfusion ·), presentItems, pairItems_of_readEntries? hvs]
      rfl
    · cases h
  | optionalText =>
    simp only [read?, Option.bind_eq_bind, Option.bind_eq_some_iff, Prod.exists] at h
    obtain ⟨flag, rest, htake, h⟩ := h
    split at h
    · next hflag =>
      cases h
      refine ⟨[.ofNat 0], rfl, ?_, trivial⟩
      rw [eq_cons_of_takeBytes? htake, hflag, Rlp.Item.ofNat, Bytes.minimal_zero]
      rfl
    · split at h
      · next hflag =>
        simp only [Option.bind_eq_some_iff, Option.pure_def, Option.some.injEq, Prod.mk.injEq,
          Prod.exists] at h
        obtain ⟨bs, rest, htext, s, hs, rfl, rfl⟩ := h
        refine ⟨[.ofNat 1, .bytes (Text.utf8 s)], rfl, ?_, trivial⟩
        rw [eq_cons_of_takeBytes? htake, eq_cons_of_takeBytes? htext, hflag,
          Text.utf8_of_ofStrictUtf8? hs, Rlp.Item.ofNat, Bytes.minimal_of_pos (by decide),
          Bytes.minimal_zero]
        rfl
      · cases h

/-! ## Reading a payload -/

/-- The values of a layout, with no item left behind them. -/
def readValues : List Field → List Rlp.Item → Option (List Value)
  | [], [] => some []
  | [], _ :: _ => none
  | f :: fields, items => do
    let (v, rest) ← f.kind.read? items
    let others ← readValues fields rest
    return v :: others

/-- The items of a variant: those in its one list, or all of them. -/
def unframe? (variant : Variant) (items : List Rlp.Item) : Option (List Rlp.Item) :=
  if variant.isWrapped then
    match items with
    | [.list inner] => some inner
    | _ => none
  else some items

/-- The payload that the bytes are the canonical form of. -/
def decode? (variant : Variant) (bs : Bytes) : Option Payload := do
  let items ← Rlp.readAll bs
  let inner ← unframe? variant items
  let values ← readValues variant.layout inner
  return ⟨variant, values⟩

/-- Each choice belongs to the family of its field. -/
def NamesOwn (fields : List Field) (values : List Value) : Prop :=
  ∀ f v, (f, v) ∈ fields.zip values → f.kind.NamesOwn v

theorem unframe?_frame (variant : Variant) (items : List Rlp.Item) :
    unframe? variant (frame variant items) = some items := by
  unfold unframe? frame
  cases variant.isWrapped with
  | true => rfl
  | false => rfl

theorem frame_of_unframe? {variant : Variant} {items inner : List Rlp.Item}
    (h : unframe? variant items = some inner) : frame variant inner = items := by
  unfold unframe? at h
  unfold frame
  split at h
  · next hwrapped =>
    rw [if_pos hwrapped]
    split at h
    · cases h
      rfl
    · cases h
  · next hbare =>
    cases h
    exact if_neg hbare

/-- The induction is on the layout: each field takes its own items and leaves those behind it. -/
theorem readValues_of_itemsOf {fields : List Field} {values : List Value} {is : List Rlp.Item}
    (hlen : values.length = fields.length) (h : itemsOf fields values = .ok is)
    (hown : NamesOwn fields values) :
    ∃ ws, readValues fields is = some ws ∧ contentsOf fields ws = contentsOf fields values := by
  induction fields generalizing values is with
  | nil =>
    cases h
    cases values with
    | nil => exact ⟨[], rfl, rfl⟩
    | cons v rest => cases hlen
  | cons f fields ih =>
    cases values with
    | nil => cases hlen
    | cons v rest =>
      simp only [itemsOf, bind_eq_ok, pure_eq_ok] at h
      obtain ⟨first, hfirst, others, hothers, rfl⟩ := h
      obtain ⟨c, hc, hholds, rfl⟩ := content?_of_fieldItems hfirst
      have hv : f.kind.NamesOwn v := hown f v List.mem_cons_self
      have hrest : NamesOwn fields rest := fun g w hmem => hown g w (List.mem_cons_of_mem _ hmem)
      obtain ⟨w, hw, hwc⟩ := read?_items hc hholds hv others
      obtain ⟨ws, hws, hwsc⟩ := ih (Nat.succ.inj hlen) hothers hrest
      refine ⟨w :: ws, ?_, ?_⟩
      · simp only [readValues, hw, hws, Option.bind_eq_bind, Option.bind_some, Option.pure_def]
      · rw [contentsOf, contentsOf, hwc, hc, hwsc]

theorem itemsOf_of_readValues {fields : List Field} {is : List Rlp.Item} {values : List Value}
    (h : readValues fields is = some values) :
    values.length = fields.length ∧ itemsOf fields values = .ok is ∧ NamesOwn fields values := by
  induction fields generalizing is values with
  | nil =>
    cases is with
    | nil =>
      cases h
      exact ⟨rfl, rfl, fun _ _ hmem => absurd hmem List.not_mem_nil⟩
    | cons item is => cases h
  | cons f fields ih =>
    simp only [readValues, Option.bind_eq_bind, Option.bind_eq_some_iff, Option.pure_def,
      Option.some.injEq, Prod.exists] at h
    obtain ⟨v, rest, hv, others, hothers, rfl⟩ := h
    obtain ⟨front, hfront, rfl, hown⟩ := fieldItems_of_read? hv
    obtain ⟨hlen, hitems, hall⟩ := ih hothers
    refine ⟨?_, ?_, ?_⟩
    · rw [List.length_cons, List.length_cons, hlen]
    · rw [itemsOf, hfront, hitems]
      rfl
    · intro g w hmem
      rcases List.mem_cons.mp hmem with heq | hmem
      · cases heq
        exact hown
      · exact hall g w hmem

/-- A byte string that is read is the encoding of what was read. -/
theorem encode_of_decode? {variant : Variant} {bs : Bytes} {p : Payload}
    (h : decode? variant bs = some p) :
    p.variant = variant ∧ p.IsComplete ∧ NamesOwn variant.layout p.values ∧ p.encode = .ok bs := by
  simp only [decode?, Option.bind_eq_bind, Option.bind_eq_some_iff, Option.pure_def,
    Option.some.injEq] at h
  obtain ⟨framed, hread, inner, hinner, values, hvalues, rfl⟩ := h
  obtain ⟨hlen, hitems, hown⟩ := itemsOf_of_readValues hvalues
  obtain ⟨hbytes, hfits⟩ := Rlp.encodeAll_of_readAll hread
  refine ⟨rfl, hlen, hown, ?_⟩
  rw [encode, Payload.items, hitems]
  show (if Rlp.fitsAll (frame variant inner) = true then _ else _) = _
  rw [frame_of_unframe? hinner, if_pos hfits, hbytes]

/-- The strict reader takes the bytes of a payload apart into the items of its contents. -/
theorem readAll_of_encode {p : Payload} {bs : Bytes} (hp : p.IsComplete) (h : p.encode = .ok bs) :
    ∃ cs, p.contents? = some cs ∧
      Rlp.readAll bs = some (frame p.variant (cs.flatMap Content.items)) := by
  obtain ⟨cs, hcs, hfits, rfl⟩ := contents?_of_encode hp h
  exact ⟨cs, hcs, Rlp.readAll_encodeAll hfits⟩

/-- Bytes of a payload whose choices are its fields' own are read as one that says the same. -/
theorem decode?_of_encode {p : Payload} {bs : Bytes} (hp : p.IsComplete) (h : p.encode = .ok bs)
    (hown : NamesOwn p.variant.layout p.values) :
    ∃ q, decode? p.variant bs = some q ∧ q.contents? = p.contents? := by
  simp only [encode, bind_eq_ok] at h
  obtain ⟨is, his, h⟩ := h
  split at h
  · next hfits =>
    cases h
    obtain ⟨ws, hws, hcontents⟩ := readValues_of_itemsOf hp his hown
    refine ⟨⟨p.variant, ws⟩, ?_, hcontents⟩
    rw [decode?, Rlp.readAll_encodeAll hfits]
    show (unframe? p.variant (frame p.variant is)).bind _ = _
    rw [unframe?_frame]
    show (readValues p.variant.layout is).bind _ = _
    rw [hws]
    rfl
  · cases h

/-- Encoding writes the canonical format and nothing else: the strict reader finds exactly the items
of the layout in the bytes of a payload, and whatever fits the kinds of a layout is the encoding of
the payload that it says. -/
theorem encode_canonical (variant : Variant) (bs : Bytes) :
    (∀ p : Payload, p.variant = variant → p.IsComplete → p.encode = .ok bs →
      ∃ cs, p.contents? = some cs ∧
        Rlp.readAll bs = some (frame variant (cs.flatMap Content.items)) ∧
        (NamesOwn variant.layout p.values →
          ∃ q, decode? variant bs = some q ∧ q.contents? = some cs)) ∧
    ∀ q : Payload, decode? variant bs = some q →
      q.variant = variant ∧ q.IsComplete ∧ NamesOwn variant.layout q.values ∧
        q.encode = .ok bs := by
  refine ⟨?_, fun q hq => encode_of_decode? hq⟩
  rintro p rfl hp hencode
  obtain ⟨cs, hcs, hread⟩ := readAll_of_encode hp hencode
  refine ⟨cs, hcs, hread, fun hown => ?_⟩
  obtain ⟨q, hq, hsame⟩ := decode?_of_encode hp hencode hown
  exact ⟨q, hq, hsame.trans hcs⟩

/-- Pausing a token, first of all operations on it, in epoch 1 after checkpoint 2. -/
def pauseBytes : Bytes :=
  [0xe2, 0x01, 0x02, 0x83, 0x12, 0x7e, 0xc5, 0x80, 0x85, 0x50, 0x61, 0x75, 0x73, 0x65, 0x94] ++
    List.replicate 20 0x11

theorem encode_pauseBytes : ∃ q : Payload, decode? .tokenPause pauseBytes = some q ∧
    q.encode = .ok pauseBytes ∧ ∃ cs, q.contents? = some cs ∧
      Rlp.readAll pauseBytes = some [.list (cs.flatMap Content.items)] := by
  have hsome : (decode? .tokenPause pauseBytes).isSome = true := by decide +kernel
  obtain ⟨q, hq⟩ := Option.isSome_iff_exists.mp hsome
  obtain ⟨hvariant, hcomplete, -, hencode⟩ := (encode_canonical .tokenPause pauseBytes).2 q hq
  obtain ⟨cs, hcs, hread, -⟩ :=
    (encode_canonical .tokenPause pauseBytes).1 q hvariant hcomplete hencode
  exact ⟨q, hq, hencode, cs, hcs, hread⟩

end Payload

end LedgerClient
