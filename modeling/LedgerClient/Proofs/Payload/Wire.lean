import LedgerClient.Proofs.Payload.Request
import LedgerClient.Proofs.Payload.Typing

/-!
# What can be signed can be posted

A payload that was built and has canonical bytes says something within bounds in each of its fields,
so each of them can be written: its body has a JSON text, and its numbers have a decimal one.
-/

namespace LedgerClient.Payload

open FieldKind Content

theorem getElem?_of_itemsOf {fields : List Field} {values : List Value} {is : List Rlp.Item}
    (hlen : values.length = fields.length) (h : itemsOf fields values = .ok is) {i : Nat} {f : Field}
    (hf : fields[i]? = some f) :
    ∃ v front, values[i]? = some v ∧ fieldItems f v = .ok front := by
  induction fields generalizing values is i with
  | nil => cases hf
  | cons g fields ih =>
    cases values with
    | nil => cases hlen
    | cons v rest =>
      simp only [itemsOf, bind_eq_ok, pure_eq_ok] at h
      obtain ⟨first, hfirst, others, hothers, -⟩ := h
      cases i with
      | zero =>
        cases hf
        exact ⟨v, first, rfl, hfirst⟩
      | succ i => exact ih (Nat.succ.inj hlen) hothers hf

/-- Each field of an encoded payload says something, and its numbers have the width of the field. -/
theorem exists_content_of_encode {p : Payload} {bs : Bytes} (hp : p.IsComplete)
    (h : p.encode = .ok bs) {i : Nat} {f : Field} (hf : p.variant.layout[i]? = some f) :
    ∃ v c, p.values[i]? = some v ∧ f.kind.content? v = some c ∧ f.kind.Holds c := by
  simp only [encode, bind_eq_ok] at h
  obtain ⟨is, his, -⟩ := h
  obtain ⟨v, front, hv, hfront⟩ := getElem?_of_itemsOf hp his hf
  obtain ⟨c, hc, hholds, -⟩ := content?_of_fieldItems hfront
  exact ⟨v, c, hv, hc, hholds⟩

/-! ## The body -/

theorem eq_of_number?_int {m : Int} {n : Nat} (h : number? (.int m) = some n) : m = n := by
  have hrange : (if 0 ≤ m then some m.toNat else none) = some n := h
  split at hrange
  · cases hrange
    omega
  · cases hrange

theorem plain_wireValue_of_number? {v : Value} {n : Nat} (h : number? v = some n)
    (hn : n < Integer.textBound) : Json.Plain 2 (wireValue v) := by
  cases v with
  | int m =>
    rw [eq_of_number?_int h]
    exact .int hn
  | amount a => exact .text a.wire
  | _ => cases h

theorem plain_wireValues_of_entries? {vs : List Value} {pairs : List (String × String)}
    (h : entries? vs = some pairs) : ∀ w ∈ wireValues vs, Json.Plain 1 w := by
  induction vs generalizing pairs with
  | nil => exact List.forall_mem_nil _
  | cons v rest ih =>
    simp only [entries?, Option.bind_eq_bind, Option.bind_eq_some_iff, Option.pure_def,
      Option.some.injEq] at h
    obtain ⟨pair, hpair, others, hothers, -⟩ := h
    unfold entry? at hpair
    split at hpair
    · next key value =>
      rw [wireValues, List.forall_mem_cons]
      exact ⟨plain_entryRecord (key, value), ih hothers⟩
    · cases hpair

/-- A typed value that says something within bounds can be written. -/
theorem plain_wireValue_of_content? {kind : FieldKind} {v : Value} {c : Content}
    (hcoerced : kind.Coerced v) (hc : kind.content? v = some c) (hholds : kind.Holds c) :
    Json.Plain 2 (wireValue v) := by
  cases kind with
  | word =>
    obtain ⟨n, hn, rfl⟩ := Option.map_eq_some_iff.mp hc
    exact plain_wireValue_of_number? hn (Integer.lt_textBound (Nat.lt_of_lt_of_le hholds (by decide)))
  | amount =>
    obtain ⟨n, hn, rfl⟩ := Option.map_eq_some_iff.mp hc
    exact plain_wireValue_of_number? hn (Integer.lt_textBound hholds)
  | address =>
    rcases hcoerced with rfl | ⟨a, rfl⟩
    · cases hc
    · exact .text a.checksum
  | text =>
    cases v with
    | text s => exact .text s
    | _ => cases hc
  | choice family =>
    cases v with
    | choice c => exact .text c.label
    | member enumeration name value =>
      cases value with
      | text s => exact .text s
      | _ => cases hc
    | _ => cases hc
  | metadata =>
    obtain ⟨entries, rfl⟩ := hcoerced
    obtain ⟨pairs, hpairs, -⟩ := Option.map_eq_some_iff.mp hc
    exact .list (plain_wireValues_of_entries? hpairs)
  | optionalText =>
    cases v with
    | null => exact .null
    | text s => exact .text s
    | _ => cases hc

theorem plain_of_encode {p : Payload} {bs : Bytes} (hp : p.IsComplete)
    (hcoerced : EachField Coerced p) (h : p.encode = .ok bs) :
    ∀ field ∈ p.wireEntries, Json.Plain 2 field.2 := by
  intro field hfield
  obtain ⟨v, hv, heq⟩ := List.mem_map.mp (List.of_mem_zip hfield).2
  obtain ⟨i, hi⟩ := List.mem_iff_getElem?.mp hv
  have hlt : i < p.variant.layout.length := by
    rw [← hp]
    exact (List.getElem?_eq_some_iff.mp hi).1
  have hf := List.getElem?_eq_getElem hlt
  obtain ⟨w, c, hw, hc, hholds⟩ := exists_content_of_encode hp h hf
  obtain rfl : w = v := Option.some.inj (hw.symm.trans hi)
  rw [← heq]
  exact plain_wireValue_of_content? (hcoerced i _ w hf hw) hc hholds

/-- The body of a payload that can be signed has a text. -/
theorem exists_bodyText_of_encode {p : Payload} {bs : Bytes} (hp : p.IsComplete)
    (hcoerced : EachField Coerced p) (h : p.encode = .ok bs) {sig : Signature}
    (hv : sig.v.natAbs < Integer.textBound) :
    ∃ text, Client.bodyText (p.toRequest sig) = .ok (some text) :=
  exists_bodyText (plain_toRequest_of_fields hp (plain_of_encode hp hcoerced h) hv) rfl

/-! ## Named fields -/

theorem lookup_zip {names : List String} {values : List Value} (hnames : names.Nodup) {i : Nat}
    {name : String} {v : Value} (hname : names[i]? = some name) (hv : values[i]? = some v) :
    (names.zip values).lookup name = some v := by
  induction names generalizing values i with
  | nil => cases hname
  | cons other names ih =>
    rw [List.nodup_cons] at hnames
    cases values with
    | nil => cases hv
    | cons u rest =>
      cases i with
      | zero =>
        cases hname
        cases hv
        rw [List.zip_cons_cons, List.lookup_cons_self]
      | succ i =>
        have hne : name ≠ other := by
          rintro rfl
          exact hnames.1 (List.mem_of_getElem? hname)
        rw [List.zip_cons_cons, List.lookup_cons, beq_false_of_ne hne]
        exact ih hnames.2 hname hv

theorem field?_of_getElem? {p : Payload} {i : Nat} {f : Field} {v : Value}
    (hf : p.variant.layout[i]? = some f) (hv : p.values[i]? = some v) : p.field? f.name = some v :=
  lookup_zip p.variant.layout_names_nodup (by rw [List.getElem?_map, hf]; rfl) hv

/-- The values of a word field of an encoded payload have a text. -/
theorem exists_display_of_encode {p : Payload} {bs : Bytes} (hp : p.IsComplete)
    (h : p.encode = .ok bs) {i : Nat} {f : Field} (hf : p.variant.layout[i]? = some f)
    (hkind : f.kind = .word) : ∃ v shown, p.field? f.name = some v ∧ v.display = .ok shown := by
  obtain ⟨v, c, hv, hc, hholds⟩ := exists_content_of_encode hp h hf
  rw [hkind] at hc hholds
  obtain ⟨n, hn, rfl⟩ := Option.map_eq_some_iff.mp hc
  refine ⟨v, ?_⟩
  cases v with
  | int m =>
    obtain rfl := eq_of_number?_int hn
    have hbound : (n : Int).natAbs < Integer.textBound :=
      Integer.lt_textBound (Nat.lt_of_lt_of_le hholds (by decide))
    exact ⟨Integer.decimal n, field?_of_getElem? hf hv, Value.integerText_of_lt hbound⟩
  | amount a => exact ⟨a.wire, field?_of_getElem? hf hv, rfl⟩
  | _ => cases hn

end LedgerClient.Payload
