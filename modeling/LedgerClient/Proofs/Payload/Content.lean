import LedgerClient.Payload.Encoding
import LedgerClient.Proofs.Address
import LedgerClient.Proofs.Payload.Construction

/-!
# What the fields of a payload say

A field says a number, an address, a text, a name, entries or a note, whatever value a caller put
there: an amount and an integer say the same number, an address says the same in every notation,
a choice says its label, and a member of an enumeration that is not the protocol's says the text that it
holds. Each content stands for fixed items of the signed bytes, and a payload
is encoded as the items of its contents in layout order.
-/

namespace LedgerClient

inductive Content where
  | number (n : Nat)
  | address (a : Address)
  | text (s : String)
  /-- The label of a choice, or what stands in its place. -/
  | name (label : String)
  | entries (pairs : List (String × String))
  /-- A text that may be absent, which is not the empty text. -/
  | note (s : Option String)
  deriving DecidableEq

namespace Content

def entryItem (pair : String × String) : Rlp.Item :=
  .list [.bytes (Text.utf8 pair.1), .bytes (Text.utf8 pair.2)]

/-- The value of an entry. -/
def entryPair (pair : String × String) : Value := .pair (.text pair.1) (.text pair.2)

/-- The items of the signed bytes. -/
def items : Content → List Rlp.Item
  | .number n => [.bytes (Bytes.minimal n)]
  | .address a => [.bytes a.bytes]
  | .text s | .name s => [.bytes (Text.utf8 s)]
  | .entries pairs => [.list (pairs.map entryItem)]
  | .note none => [.bytes []]
  | .note (some s) => [.bytes [1], .bytes (Text.utf8 s)]

inductive Shape where
  | number
  | address
  | text
  | name
  | entries
  | note
  deriving DecidableEq

def shape : Content → Shape
  | .number _ => .number
  | .address _ => .address
  | .text _ => .text
  | .name _ => .name
  | .entries _ => .entries
  | .note _ => .note

end Content

namespace FieldKind

open Content

def shape : FieldKind → Shape
  | .word | .amount => .number
  | .address => .address
  | .text => .text
  | .choice _ => .name
  | .metadata => .entries
  | .optionalText => .note

def entry? : Value → Option (String × String)
  | .pair (.text key) (.text value) => some (key, value)
  | _ => none

def entries? : List Value → Option (List (String × String))
  | [] => some []
  | v :: rest => do
    let pair ← entry? v
    let others ← entries? rest
    return pair :: others

/-- An address in any of its notations. -/
def address? : Value → Option Address
  | .address a => some a
  | .text s => (Address.ofHex s).toOption
  | .bytes bs | .buffer bs => Address.ofBytes? bs
  | _ => none

def number? : Value → Option Nat
  | .int n => if 0 ≤ n then some n.toNat else none
  | .amount a => some a.units
  | _ => none

def name? : Value → Option String
  | .choice c => some c.label
  | .member _ _ (.text s) => some s
  | _ => none

/-- What a value says in a field of some kind. -/
def content? (kind : FieldKind) (v : Value) : Option Content :=
  match kind, v with
  | .word, v | .amount, v => (number? v).map .number
  | .address, v => (address? v).map .address
  | .text, .text s => some (.text s)
  | .choice _, v => (name? v).map .name
  | .metadata, .tuple pairs | .metadata, .list pairs => (entries? pairs).map .entries
  | .optionalText, .null => some (.note none)
  | .optionalText, .text s => some (.note (some s))
  | _, _ => none

/-- A number has the width of its field. -/
def Holds : FieldKind → Content → Prop
  | .word, .number n => n < 2 ^ 64
  | .amount, .number n => n < 2 ^ 256
  | _, _ => True

theorem shape_of_content? {kind : FieldKind} {v : Value} {c : Content}
    (h : kind.content? v = some c) : c.shape = kind.shape := by
  unfold content? at h
  split at h
  · obtain ⟨n, -, rfl⟩ := Option.map_eq_some_iff.mp h
    rfl
  · obtain ⟨n, -, rfl⟩ := Option.map_eq_some_iff.mp h
    rfl
  · obtain ⟨a, -, rfl⟩ := Option.map_eq_some_iff.mp h
    rfl
  · cases h
    rfl
  · obtain ⟨label, -, rfl⟩ := Option.map_eq_some_iff.mp h
    rfl
  · obtain ⟨pairs, -, rfl⟩ := Option.map_eq_some_iff.mp h
    rfl
  · obtain ⟨pairs, -, rfl⟩ := Option.map_eq_some_iff.mp h
    rfl
  · cases h
    rfl
  · cases h
    rfl
  · cases h

theorem name?_of_content? {kind : FieldKind} {v : Value} {label : String}
    (h : kind.content? v = some (.name label)) : name? v = some label := by
  have hshape := shape_of_content? h
  cases kind with
  | choice family =>
    obtain ⟨l, hl, heq⟩ := Option.map_eq_some_iff.mp h
    cases heq
    exact hl
  | _ => cases hshape

/-- A member of an enumeration that is none of the protocol's. -/
def isForeign : Value → Bool
  | .member .. => true
  | _ => false

/-- A name is the label of a choice unless it comes from elsewhere. -/
theorem exists_choice_of_content? {kind : FieldKind} {v : Value} {label : String}
    (h : kind.content? v = some (.name label)) (hv : isForeign v = false) :
    ∃ c : Choice, v = .choice c ∧ c.label = label := by
  have hname := name?_of_content? h
  cases v with
  | choice c => exact ⟨c, rfl, Option.some.inj hname⟩
  | member => cases hv
  | _ => cases hname

end FieldKind

namespace Payload

open FieldKind Content

/-! ## The items of one field -/

theorem number?_of_unsigned {name : String} {v : Value} {bits n : Nat}
    (h : unsigned name v bits = .ok n) : number? v = some n ∧ n < 2 ^ bits := by
  have hfail : ∀ m : Int, (failOutOfRange name m bits : Result Nat) ≠ .ok n := by
    intro m hm
    rw [failOutOfRange, bind_eq_ok] at hm
    obtain ⟨shown, -, hm⟩ := hm
    cases hm
  unfold unsigned at h
  split at h
  · next a =>
    simp only at h
    split at h
    · next hrange =>
      cases h
      exact ⟨rfl, hrange.2⟩
    · exact absurd h (hfail _)
  · next m =>
    simp only at h
    split at h
    · next hrange =>
      cases h
      exact ⟨if_pos hrange.1, hrange.2⟩
    · exact absurd h (hfail _)
  · cases h

theorem address?_of_coerce {name : String} {v : Value} {a : Address}
    (h : Address.coerce name v = .ok a) : address? v = some a := by
  have hbytes : ∀ bs, Address.ofByteString bs = .ok a → Address.ofBytes? bs = some a := by
    intro bs hbs
    unfold Address.ofByteString at hbs
    split at hbs
    · next b hb =>
      cases hbs
      exact hb
    · cases hbs
  unfold Address.coerce at h
  split at h
  · cases h
    rfl
  · rw [address?, h]
    rfl
  · exact absurd h (Address.ofTorn_ne_ok _ a)
  · exact hbytes _ h
  · exact hbytes _ h
  · cases h

theorem text_of_textBytes {name : String} {v : Value} {bs : Bytes} (h : textBytes name v = .ok bs) :
    ∃ s, v = .text s ∧ bs = Text.utf8 s := by
  unfold textBytes at h
  split at h
  · next s =>
    cases h
    exact ⟨s, rfl, rfl⟩
  · cases h
  · cases h

theorem entry?_of_pairItem {name : String} {v : Value} {item : Rlp.Item}
    (h : pairItem name v = .ok item) : ∃ pair, entry? v = some pair ∧ item = entryItem pair := by
  unfold pairItem at h
  split at h
  · next key value =>
    simp only [bind_eq_ok, pure_eq_ok] at h
    obtain ⟨ks, hk, xs, hx, rfl⟩ := h
    obtain ⟨k, rfl, rfl⟩ := text_of_textBytes hk
    obtain ⟨x, rfl, rfl⟩ := text_of_textBytes hx
    exact ⟨(k, x), rfl, rfl⟩
  · cases h

theorem entries?_of_pairItems {name : String} {vs : List Value} {is : List Rlp.Item}
    (h : pairItems name vs = .ok is) :
    ∃ pairs, entries? vs = some pairs ∧ is = pairs.map entryItem := by
  induction vs generalizing is with
  | nil =>
    cases h
    exact ⟨[], rfl, rfl⟩
  | cons v rest ih =>
    simp only [pairItems, bind_eq_ok, pure_eq_ok] at h
    obtain ⟨item, hitem, others, hothers, rfl⟩ := h
    obtain ⟨pair, hpair, rfl⟩ := entry?_of_pairItem hitem
    obtain ⟨pairs, hpairs, rfl⟩ := ih hothers
    exact ⟨pair :: pairs, by simp [entries?, hpair, hpairs], rfl⟩

/-- A field contributes the items of what it says. -/
theorem content?_of_fieldItems {f : Field} {v : Value} {is : List Rlp.Item}
    (h : fieldItems f v = .ok is) :
    ∃ c, f.kind.content? v = some c ∧ f.kind.Holds c ∧ is = c.items := by
  obtain ⟨name, kind, isOptional⟩ := f
  unfold fieldItems at h
  split at h
  · split at h
    · next hkind =>
      simp only at hkind
      cases h
      subst hkind
      exact ⟨.note none, rfl, trivial, by rw [Rlp.Item.ofNat, Bytes.minimal_zero]; rfl⟩
    · cases h
  · cases kind with
    | word =>
      simp only [presentItems, bind_eq_ok, pure_eq_ok] at h
      obtain ⟨n, hn, rfl⟩ := h
      obtain ⟨hnumber, hlt⟩ := number?_of_unsigned hn
      exact ⟨.number n, by simp [content?, hnumber], hlt, rfl⟩
    | amount =>
      simp only [presentItems, bind_eq_ok, pure_eq_ok] at h
      obtain ⟨n, hn, rfl⟩ := h
      obtain ⟨hnumber, hlt⟩ := number?_of_unsigned hn
      exact ⟨.number n, by simp [content?, hnumber], hlt, rfl⟩
    | address =>
      simp only [presentItems, bind_eq_ok, pure_eq_ok] at h
      obtain ⟨a, ha, rfl⟩ := h
      exact ⟨.address a, by simp [content?, address?_of_coerce ha], trivial, rfl⟩
    | text =>
      simp only [presentItems, bind_eq_ok, pure_eq_ok] at h
      obtain ⟨bs, hbs, rfl⟩ := h
      obtain ⟨s, rfl, rfl⟩ := text_of_textBytes hbs
      exact ⟨.text s, rfl, trivial, rfl⟩
    | choice family =>
      cases v with
      | choice c =>
        cases h
        exact ⟨.name c.label, rfl, trivial, rfl⟩
      | member foreign member value =>
        simp only [presentItems, bind_eq_ok, pure_eq_ok] at h
        obtain ⟨bs, hbs, rfl⟩ := h
        obtain ⟨s, rfl, rfl⟩ := text_of_textBytes hbs
        exact ⟨.name s, rfl, trivial, rfl⟩
      | _ => cases h
    | metadata =>
      unfold presentItems at h
      simp only at h
      split at h
      · simp only [bind_eq_ok, pure_eq_ok] at h
        obtain ⟨items, hitems, rfl⟩ := h
        obtain ⟨pairs, hpairs, rfl⟩ := entries?_of_pairItems hitems
        exact ⟨.entries pairs, by simp [content?, hpairs], trivial, rfl⟩
      · simp only [bind_eq_ok, pure_eq_ok] at h
        obtain ⟨items, hitems, rfl⟩ := h
        obtain ⟨pairs, hpairs, rfl⟩ := entries?_of_pairItems hitems
        exact ⟨.entries pairs, by simp [content?, hpairs], trivial, rfl⟩
      · cases h
    | optionalText =>
      simp only [presentItems, bind_eq_ok, pure_eq_ok] at h
      obtain ⟨bs, hbs, rfl⟩ := h
      obtain ⟨s, rfl, rfl⟩ := text_of_textBytes hbs
      exact ⟨.note (some s), rfl, trivial, by
        rw [Rlp.Item.ofNat, Bytes.minimal_of_pos (by decide), Bytes.minimal_zero]; rfl⟩

/-! ## The items of a payload -/

def contentsOf : List Field → List Value → Option (List Content)
  | [], [] => some []
  | f :: fields, v :: values => do
    let c ← f.kind.content? v
    let others ← contentsOf fields values
    return c :: others
  | _, _ => none

/-- What a payload says in the fields of its layout, in their order. -/
def contents? (p : Payload) : Option (List Content) := contentsOf p.variant.layout p.values

theorem contentsOf_cons {f : Field} {fields : List Field} {v : Value} {values : List Value}
    {cs : List Content} (h : contentsOf (f :: fields) (v :: values) = some cs) :
    ∃ c others, f.kind.content? v = some c ∧ contentsOf fields values = some others ∧
      cs = c :: others := by
  simp only [contentsOf, Option.bind_eq_bind, Option.bind_eq_some_iff, Option.pure_def,
    Option.some.injEq] at h
  obtain ⟨c, hc, others, hothers, rfl⟩ := h
  exact ⟨c, others, hc, hothers, rfl⟩

/-- The induction is on the layout, with the values beside it. -/
theorem contentsOf_of_itemsOf {fields : List Field} {values : List Value} {is : List Rlp.Item}
    (hlen : values.length = fields.length) (h : itemsOf fields values = .ok is) :
    ∃ cs, contentsOf fields values = some cs ∧ is = cs.flatMap Content.items := by
  induction fields generalizing values is with
  | nil =>
    cases h
    cases values with
    | nil => exact ⟨[], rfl, rfl⟩
    | cons v rest => cases hlen
  | cons f fields ih =>
    cases values with
    | nil => cases hlen
    | cons v rest =>
      simp only [itemsOf, bind_eq_ok, pure_eq_ok] at h
      obtain ⟨first, hfirst, others, hothers, rfl⟩ := h
      obtain ⟨c, hc, -, rfl⟩ := content?_of_fieldItems hfirst
      obtain ⟨cs, hcs, rfl⟩ := ih (Nat.succ.inj hlen) hothers
      exact ⟨c :: cs, by simp [contentsOf, hc, hcs], rfl⟩

theorem shapes_of_contentsOf {fields : List Field} {values : List Value} {cs : List Content}
    (h : contentsOf fields values = some cs) : cs.map Content.shape = fields.map fun f => f.kind.shape := by
  induction fields generalizing values cs with
  | nil =>
    cases values with
    | nil =>
      cases h
      rfl
    | cons v rest => cases h
  | cons f fields ih =>
    cases values with
    | nil => cases h
    | cons v rest =>
      obtain ⟨c, others, hc, hothers, rfl⟩ := contentsOf_cons h
      rw [List.map_cons, List.map_cons, shape_of_content? hc, ih hothers]

/-- Only the protocol's own choices are named. -/
def NamesChoices (p : Payload) : Prop := ∀ v ∈ p.values, isForeign v = false

instance (p : Payload) : Decidable p.NamesChoices :=
  inferInstanceAs (Decidable (∀ v ∈ p.values, isForeign v = false))

theorem exists_choice_of_contentsOf {fields : List Field} {values : List Value} {cs : List Content}
    (h : contentsOf fields values = some cs) (hown : ∀ v ∈ values, isForeign v = false)
    {label : String} (hmem : .name label ∈ cs) : ∃ c : Choice, c.label = label := by
  induction fields generalizing values cs with
  | nil =>
    cases values with
    | nil =>
      cases h
      cases hmem
    | cons v rest => cases h
  | cons f fields ih =>
    cases values with
    | nil => cases h
    | cons v rest =>
      obtain ⟨c, others, hc, hothers, rfl⟩ := contentsOf_cons h
      rcases List.mem_cons.mp hmem with rfl | hmem
      · obtain ⟨choice, -, hlabel⟩ := exists_choice_of_content? hc (hown v List.mem_cons_self)
        exact ⟨choice, hlabel⟩
      · exact ih hothers (fun w hw => hown w (List.mem_cons_of_mem _ hw)) hmem

/-- The bytes of a payload are the framed items of its contents. -/
theorem contents?_of_encode {p : Payload} {bs : Bytes} (hp : p.IsComplete) (h : p.encode = .ok bs) :
    ∃ cs, p.contents? = some cs ∧
      Rlp.fitsAll (frame p.variant (cs.flatMap Content.items)) = true ∧
      bs = Rlp.encodeAll (frame p.variant (cs.flatMap Content.items)) := by
  simp only [encode, bind_eq_ok] at h
  obtain ⟨is, his, h⟩ := h
  obtain ⟨cs, hcs, rfl⟩ := contentsOf_of_itemsOf hp his
  split at h
  · next hfits =>
    cases h
    exact ⟨cs, hcs, hfits, rfl⟩
  · cases h

end Payload

end LedgerClient
