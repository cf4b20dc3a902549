import LedgerClient.Proofs.Number.Integer
import LedgerClient.Proofs.Payload.Typing

/-!
# Which payloads are encoded

A payload that was built is encoded when the encoder accepts the value of each field. If not, the first
field in the order of the layout whose value is not accepted decides the error, whatever stands in the
fields behind it, and nothing of the payload is signed.
-/

namespace LedgerClient

namespace FieldKind

open Content

/-! ## Values that are accepted -/

/-- The encoder accepts the value in a field of the kind. A choice may be of any family; a member of
another enumeration stands for its value, which must be a text. -/
inductive Encodable : FieldKind → Value → Prop where
  | word {n : Nat} (h : n < 2 ^ 64) : Encodable .word (.int n)
  | units {a : TokenAmount} (h : a.units < 2 ^ 64) : Encodable .word (.amount a)
  | amount (a : TokenAmount) : Encodable .amount (.amount a)
  | address (a : Address) : Encodable .address (.address a)
  | text (s : String) : Encodable .text (.text s)
  | choice (family : Family) (c : Choice) : Encodable (.choice family) (.choice c)
  | member (family : Family) (enumeration name s : String) :
      Encodable (.choice family) (.member enumeration name (.text s))
  | metadata (entries : List (String × String)) :
      Encodable .metadata (.tuple (entries.map entryPair))
  | absent : Encodable .optionalText .null
  | note (s : String) : Encodable .optionalText (.text s)

/-- An integer in place of a number has a decimal text. -/
def Short : FieldKind → Value → Prop
  | .word, .int n => n.natAbs < Integer.textBound
  | _, _ => True

/-- A text among the values has no lone surrogate. -/
def isWhole : Value → Bool
  | .torn _ => false
  | _ => true

/-- The texts that the encoder reads in a field of the kind have no lone surrogates. -/
def Whole : FieldKind → Value → Prop
  | .text, v | .optionalText, v => isWhole v = true
  | .choice _, .member _ _ value => isWhole value = true
  | .metadata, .tuple pairs =>
    ∀ key value, .pair key value ∈ pairs → isWhole key = true ∧ isWhole value = true
  | _, _ => True

/-- What an error says that a field of the kind should hold. -/
def expected? : FieldKind → Option String
  | .word => some "integer"
  | .text | .optionalText => some "str"
  | .choice _ => some "enum member"
  | .amount | .address | .metadata => none

/-- The value is of the type that the error asks for. -/
def isOfType : FieldKind → Value → Bool
  | .word, .int _ | .word, .amount _ => true
  | .text, .text _ | .optionalText, .text _ => true
  | .choice _, .choice _ | .choice _, .member .. => true
  | _, _ => false

/-- The value in a field of this name is not accepted, for this cause. Of a member of another enumeration
it is a value that is no text. Of metadata it is the first entry with a part that is no text, and the key
of that entry before its value. A missing value has the code
4001, an integer out of range 4002 and a value of a wrong type 4003. -/
inductive Offence (name : String) : FieldKind → Value → EncodingCause → Prop where
  | missing {kind : FieldKind} (h : kind ≠ .optionalText) : Offence name kind .null (.missing name)
  | outOfRange {n : Int} (h : n < 0 ∨ 2 ^ 64 ≤ n) :
      Offence name .word (.int n) (.outOfRange name (Integer.decimal n) 64)
  | unitsOutOfRange {a : TokenAmount} (h : 2 ^ 64 ≤ a.units) :
      Offence name .word (.amount a) (.outOfRange name (Integer.decimal a.units) 64)
  | wrongType {kind : FieldKind} {v : Value} {what : String} (hwhat : kind.expected? = some what)
      (hnull : v ≠ .null) (htype : kind.isOfType v = false) :
      Offence name kind v (.invalid name (.expected what v.typeName))
  | member {family : Family} {enumeration label : String} {value : Value}
      (h : isText value = false) :
      Offence name (.choice family) (.member enumeration label value)
        (.invalid name (.expected "str" value.typeName))
  | key {before : List (String × String)} {key value : Value} {after : List Value}
      (h : isText key = false) :
      Offence name .metadata (.tuple (before.map entryPair ++ .pair key value :: after))
        (.invalid (name ++ ".key") (.expected "str" key.typeName))
  | value {before : List (String × String)} {key : String} {value : Value} {after : List Value}
      (h : isText value = false) :
      Offence name .metadata
        (.tuple (before.map entryPair ++ .pair (.text key) value :: after))
        (.invalid (name ++ ".value") (.expected "str" value.typeName))

/-- A missing value and an integer are told by their codes. -/
theorem Offence.number_code {name : String} {kind : FieldKind} {v : Value} {cause : EncodingCause}
    (h : Offence name kind v cause) :
    (cause.code.number = "4001" ↔ v = .null) ∧
    (cause.code.number = "4002" ↔ kind = .word ∧ kind.isOfType v = true) := by
  cases h with
  | missing h =>
    refine ⟨iff_of_true rfl rfl, iff_of_false (by decide : "4001" ≠ "4002") ?_⟩
    rintro ⟨rfl, hv⟩
    cases hv
  | outOfRange h =>
    exact ⟨iff_of_false (by decide : "4002" ≠ "4001") Value.noConfusion, iff_of_true rfl ⟨rfl, rfl⟩⟩
  | unitsOutOfRange h =>
    exact ⟨iff_of_false (by decide : "4002" ≠ "4001") Value.noConfusion, iff_of_true rfl ⟨rfl, rfl⟩⟩
  | wrongType hwhat hnull htype =>
    refine ⟨iff_of_false (by decide : "4003" ≠ "4001") hnull,
      iff_of_false (by decide : "4003" ≠ "4002") ?_⟩
    rintro ⟨-, hv⟩
    rw [htype] at hv
    cases hv
  | member h =>
    exact ⟨iff_of_false (by decide : "4003" ≠ "4001") Value.noConfusion,
      iff_of_false (by decide : "4003" ≠ "4002") fun hword => FieldKind.noConfusion hword.1⟩
  | key h =>
    exact ⟨iff_of_false (by decide : "4003" ≠ "4001") Value.noConfusion,
      iff_of_false (by decide : "4003" ≠ "4002") fun hword => FieldKind.noConfusion hword.1⟩
  | value h =>
    exact ⟨iff_of_false (by decide : "4003" ≠ "4001") Value.noConfusion,
      iff_of_false (by decide : "4003" ≠ "4002") fun hword => FieldKind.noConfusion hword.1⟩

end FieldKind

namespace Payload

open FieldKind Content

/-! ## One field -/

theorem pairItems_entryPairs (name : String) (entries : List (String × String)) :
    pairItems name (entries.map entryPair) = .ok (entries.map entryItem) := by
  induction entries with
  | nil => rfl
  | cons e entries ih =>
    rw [List.map_cons, pairItems, ih]
    rfl

/-- The first pair that is no entry decides. -/
theorem pairItems_error {name : String} {v : Value} {f : Failure} (h : pairItem name v = .error f)
    (before : List (String × String)) (after : List Value) :
    pairItems name (before.map entryPair ++ v :: after) = .error f := by
  induction before with
  | nil =>
    rw [List.map_nil, List.nil_append, pairItems, h]
    rfl
  | cons e before ih =>
    rw [List.map_cons, List.cons_append, pairItems, ih]
    rfl

theorem exists_text_of_isText {v : Value} (h : isText v = true) (hwhole : isWhole v = true) :
    ∃ s, v = .text s := by
  cases v with
  | text s => exact ⟨s, rfl⟩
  | torn t => cases hwhole
  | _ => cases h

theorem textBytes_of_not_isText {name : String} {v : Value} (h : isText v = false) :
    textBytes name v = .failExpected name "str" v := by
  cases v <;> first | rfl | cases h

theorem unsigned_of_outside {name : String} {bits : Nat} {n : Int} (h : n < 0 ∨ 2 ^ bits ≤ n)
    (hn : n.natAbs < Integer.textBound) :
    unsigned name (.int n) bits = .fail (.outOfRange name (Integer.decimal n) bits) := by
  have hout : ¬(0 ≤ n ∧ n.toNat < 2 ^ bits) := by
    rintro ⟨hnonneg, hlt⟩
    have hcast : ((n.toNat : Nat) : Int) < ((2 ^ bits : Nat) : Int) := Int.ofNat_lt.mpr hlt
    rw [Int.toNat_of_nonneg hnonneg] at hcast
    push_cast at hcast
    omega
  simp only [unsigned, if_neg hout, failOutOfRange, Value.integerText_of_lt hn]
  rfl

theorem presentItems_of_wrongType (name : String) {kind : FieldKind} {v : Value} {what : String}
    (hwhat : kind.expected? = some what) (htype : kind.isOfType v = false) (hwhole : kind.Whole v) :
    presentItems name kind v = .failExpected name what v := by
  cases kind with
  | word | text | optionalText | choice _ =>
    cases hwhat
    cases v <;> first | rfl | exact absurd hwhole Bool.false_ne_true | cases htype
  | amount | address | metadata => cases hwhat

theorem fieldItems_of_encodable {f : Field} {v : Value} (h : f.kind.Encodable v) :
    ∃ is, fieldItems f v = .ok is := by
  obtain ⟨name, kind, isOptional⟩ := f
  cases h with
  | @word n hn =>
    refine ⟨[.ofNat n], ?_⟩
    show (do let m ← unsigned name (.int n) 64; return [Rlp.Item.ofNat m]) = _
    rw [unsigned_int hn]
    rfl
  | @units a ha =>
    refine ⟨[.ofNat a.units], ?_⟩
    show (do let m ← unsigned name (.amount a) 64; return [Rlp.Item.ofNat m]) = _
    rw [unsigned_amount, unsigned_int ha]
    rfl
  | amount a =>
    refine ⟨[.ofNat a.units], ?_⟩
    show (do let m ← unsigned name (.amount a) 256; return [Rlp.Item.ofNat m]) = _
    rw [unsigned_amount, unsigned_int a.units_lt]
    rfl
  | address a => exact ⟨_, rfl⟩
  | text s => exact ⟨_, rfl⟩
  | choice family c => exact ⟨_, rfl⟩
  | member family enumeration label s => exact ⟨_, rfl⟩
  | metadata entries =>
    refine ⟨[.list (entries.map entryItem)], ?_⟩
    show (do
      let items ← pairItems name (entries.map entryPair)
      return [Rlp.Item.list items]) = _
    rw [pairItems_entryPairs]
    rfl
  | absent => exact ⟨_, rfl⟩
  | note s => exact ⟨_, rfl⟩

theorem fieldItems_of_offence {f : Field} {v : Value} {cause : EncodingCause}
    (h : f.kind.Offence f.name v cause) (hshort : f.kind.Short v) (hwhole : f.kind.Whole v) :
    fieldItems f v = .fail (.encoding cause) := by
  obtain ⟨name, kind, isOptional⟩ := f
  cases h with
  | missing h =>
    show (if kind = .optionalText then _ else _) = _
    rw [if_neg h]
    rfl
  | @outOfRange n hout =>
    show (do let m ← unsigned name (.int n) 64; return [Rlp.Item.ofNat m]) = _
    rw [unsigned_of_outside hout hshort]
    rfl
  | @unitsOutOfRange a hout =>
    have hunits : (a.units : Int).natAbs < Integer.textBound := Integer.lt_textBound a.units_lt
    show (do let m ← unsigned name (.amount a) 64; return [Rlp.Item.ofNat m]) = _
    rw [unsigned_amount, unsigned_of_outside (.inr (by exact_mod_cast hout)) hunits]
    rfl
  | wrongType hwhat hnull htype =>
    rw [fieldItems_of_present hnull, presentItems_of_wrongType name hwhat htype hwhole]
    rfl
  | @member family enumeration label value hvalue =>
    show (do let bs ← textBytes name value; return [Rlp.Item.bytes bs]) = _
    rw [textBytes_of_not_isText hvalue]
    rfl
  | @key before key value after hkey =>
    have hpair : pairItem name (.pair key value) = .failExpected (name ++ ".key") "str" key := by
      rw [pairItem, textBytes_of_not_isText hkey]
      rfl
    show (do let items ← pairItems name _; return [Rlp.Item.list items]) = _
    rw [pairItems_error hpair]
    rfl
  | @value before key value after hvalue =>
    have hpair : pairItem name (.pair (.text key) value) =
        .failExpected (name ++ ".value") "str" value := by
      rw [pairItem, textBytes_of_not_isText hvalue]
      rfl
    show (do let items ← pairItems name _; return [Rlp.Item.list items]) = _
    rw [pairItems_error hpair]
    rfl

/-- Pairs without torn texts are pairs of texts up to the first one that is not. -/
theorem entryPairs_or_split {pairs : List (Value × Value)}
    (hwhole : ∀ e ∈ pairs, isWhole e.1 = true ∧ isWhole e.2 = true) :
    (∃ entries : List (String × String),
      pairs.map (fun e => Value.pair e.1 e.2) = entries.map entryPair) ∨
    ∃ (before : List (String × String)) (key value : Value) (after : List Value),
      pairs.map (fun e => Value.pair e.1 e.2) = before.map entryPair ++ .pair key value :: after ∧
      (isText key = false ∨ ∃ s, key = .text s ∧ isText value = false) := by
  induction pairs with
  | nil => exact .inl ⟨[], rfl⟩
  | cons e rest ih =>
    obtain ⟨key, value⟩ := e
    obtain ⟨hwholeKey, hwholeValue⟩ := hwhole (key, value) List.mem_cons_self
    cases hkey : isText key with
    | false => exact .inr ⟨[], key, value, _, rfl, .inl hkey⟩
    | true =>
      obtain ⟨k, rfl⟩ := exists_text_of_isText hkey hwholeKey
      cases hvalue : isText value with
      | false => exact .inr ⟨[], .text k, value, _, rfl, .inr ⟨k, rfl, hvalue⟩⟩
      | true =>
        obtain ⟨x, rfl⟩ := exists_text_of_isText hvalue hwholeValue
        rcases ih fun e he => hwhole e (List.mem_cons_of_mem _ he) with
          ⟨entries, hentries⟩ | ⟨before, key, value, after, hsplit, hbad⟩
        · refine .inl ⟨(k, x) :: entries, ?_⟩
          rw [List.map_cons, hentries]
          rfl
        · refine .inr ⟨(k, x) :: before, key, value, after, ?_, hbad⟩
          rw [List.map_cons, hsplit]
          rfl

/-- A value that a field keeps is accepted or is an offence. -/
theorem encodable_or_offence (name : String) {kind : FieldKind} {v : Value} (h : kind.Coerced v)
    (hwhole : kind.Whole v) :
    kind.Encodable v ∨ ∃ cause, kind.Offence name v cause := by
  cases kind with
  | word =>
    cases v with
    | null => exact .inr ⟨_, .missing FieldKind.noConfusion⟩
    | int n =>
      by_cases hrange : 0 ≤ n ∧ n < 2 ^ 64
      · obtain ⟨m, rfl⟩ := Int.eq_ofNat_of_zero_le hrange.1
        exact .inl (.word (by exact_mod_cast hrange.2))
      · exact .inr ⟨_, .outOfRange (by omega)⟩
    | amount a =>
      rcases Nat.lt_or_ge a.units (2 ^ 64) with hlt | hout
      · exact .inl (.units hlt)
      · exact .inr ⟨_, .unitsOutOfRange hout⟩
    | _ => exact .inr ⟨_, .wrongType rfl Value.noConfusion rfl⟩
  | amount =>
    rcases h with rfl | ⟨a, rfl⟩
    · exact .inr ⟨_, .missing FieldKind.noConfusion⟩
    · exact .inl (.amount a)
  | address =>
    rcases h with rfl | ⟨a, rfl⟩
    · exact .inr ⟨_, .missing FieldKind.noConfusion⟩
    · exact .inl (.address a)
  | text =>
    cases v with
    | null => exact .inr ⟨_, .missing FieldKind.noConfusion⟩
    | text s => exact .inl (.text s)
    | _ => exact .inr ⟨_, .wrongType rfl Value.noConfusion rfl⟩
  | choice family =>
    cases v with
    | null => exact .inr ⟨_, .missing FieldKind.noConfusion⟩
    | choice c => exact .inl (.choice family c)
    | member enumeration label value =>
      cases hvalue : isText value with
      | false => exact .inr ⟨_, .member hvalue⟩
      | true =>
        obtain ⟨s, rfl⟩ := exists_text_of_isText hvalue hwhole
        exact .inl (.member family enumeration label s)
    | _ => exact .inr ⟨_, .wrongType rfl Value.noConfusion rfl⟩
  | metadata =>
    obtain ⟨pairs, rfl⟩ := h
    have hall : ∀ e ∈ pairs, isWhole e.1 = true ∧ isWhole e.2 = true :=
      fun e he => hwhole e.1 e.2 (List.mem_map.mpr ⟨e, he, rfl⟩)
    rcases entryPairs_or_split hall with
      ⟨entries, hentries⟩ | ⟨before, key, value, after, hsplit, hkey | ⟨s, rfl, hvalue⟩⟩
    · rw [hentries]
      exact .inl (.metadata entries)
    · rw [hsplit]
      exact .inr ⟨_, .key hkey⟩
    · rw [hsplit]
      exact .inr ⟨_, .value hvalue⟩
  | optionalText =>
    cases v with
    | null => exact .inl .absent
    | text s => exact .inl (.note s)
    | _ => exact .inr ⟨_, .wrongType rfl Value.noConfusion rfl⟩

/-! ## All fields -/

/-- The first field whose value is not accepted, and the cause. -/
inductive FirstOffence : List Field → List Value → EncodingCause → Prop where
  | here {f : Field} {fields : List Field} {v : Value} {values : List Value} {cause : EncodingCause}
      (h : f.kind.Offence f.name v cause) : FirstOffence (f :: fields) (v :: values) cause
  | later {f : Field} {fields : List Field} {v : Value} {values : List Value} {cause : EncodingCause}
      (hfield : f.kind.Encodable v) (h : FirstOffence fields values cause) :
      FirstOffence (f :: fields) (v :: values) cause

theorem itemsOf_of_encodable {fields : List Field} {values : List Value}
    (h : List.Forall₂ (fun f v => f.kind.Encodable v) fields values) :
    ∃ is, itemsOf fields values = .ok is := by
  induction h with
  | nil => exact ⟨[], rfl⟩
  | cons hfield _ ih =>
    obtain ⟨first, hfirst⟩ := fieldItems_of_encodable hfield
    obtain ⟨others, hothers⟩ := ih
    refine ⟨first ++ others, ?_⟩
    rw [itemsOf, hfirst, hothers]
    rfl

/-- The fields in front are encoded before the error, and those behind it are not looked at. -/
theorem itemsOf_of_firstOffence {fields : List Field} {values : List Value} {cause : EncodingCause}
    (h : FirstOffence fields values cause)
    (hshort : List.Forall₂ (fun f v => f.kind.Short v) fields values)
    (hwhole : List.Forall₂ (fun f v => f.kind.Whole v) fields values) :
    itemsOf fields values = .fail (.encoding cause) := by
  induction h with
  | here h =>
    obtain _ | ⟨hshort, -⟩ := hshort
    obtain _ | ⟨hwhole, -⟩ := hwhole
    rw [itemsOf, fieldItems_of_offence h hshort hwhole]
    rfl
  | later hfield _ ih =>
    obtain _ | ⟨-, hshort⟩ := hshort
    obtain _ | ⟨-, hwhole⟩ := hwhole
    obtain ⟨first, hfirst⟩ := fieldItems_of_encodable hfield
    rw [itemsOf, hfirst, ih hshort hwhole]
    rfl

theorem encodable_or_firstOffence {fields : List Field} {values : List Value}
    (h : List.Forall₂ (fun f v => f.kind.Coerced v) fields values)
    (hwhole : List.Forall₂ (fun f v => f.kind.Whole v) fields values) :
    List.Forall₂ (fun f v => f.kind.Encodable v) fields values ∨
      ∃ cause, FirstOffence fields values cause := by
  induction h with
  | nil => exact .inl .nil
  | @cons f v _ _ hfield _ ih =>
    obtain _ | ⟨hwholeField, hwholeOthers⟩ := hwhole
    rcases encodable_or_offence f.name hfield hwholeField with hencodable | ⟨cause, hoffence⟩
    · rcases ih hwholeOthers with hothers | ⟨cause, hothers⟩
      · exact .inl (.cons hencodable hothers)
      · exact .inr ⟨cause, .later hencodable hothers⟩
    · exact .inr ⟨cause, .here hoffence⟩

/-! ## The payload -/

/-- Accepted values are encoded. Only bytes that no header can count are refused then. -/
theorem encode_of_encodable {p : Payload} (hp : p.IsComplete) (h : EachField Encodable p) :
    ∃ cs, p.contents? = some cs ∧
      (p.encode = .ok (Rlp.encodeAll (frame p.variant (cs.flatMap Content.items))) ∨
        p.encode = .error tooLong ∧
          Rlp.lengthBound ≤ (Rlp.encodeAll (frame p.variant (cs.flatMap Content.items))).length) := by
  obtain ⟨is, his⟩ := itemsOf_of_encodable ((eachField_iff hp).mp h)
  obtain ⟨cs, hcs, rfl⟩ := contentsOf_of_itemsOf hp his
  refine ⟨cs, hcs, ?_⟩
  rw [encode, Payload.items, his]
  show (if Rlp.fitsAll _ = true then _ else _) = _ ∨ (if Rlp.fitsAll _ = true then _ else _) = _ ∧ _
  by_cases hfits : Rlp.fitsAll (frame p.variant (cs.flatMap Content.items)) = true
  · exact .inl (if_pos hfits)
  · refine .inr ⟨if_neg hfits, ?_⟩
    by_contra hlt
    exact hfits (Rlp.fitsAll_of_length_lt _ (Nat.lt_of_not_le hlt))

/-- An error of the encoder is the one error of everything that is made of the bytes. -/
theorem signPayload_of_encode_error {p : Payload} {f : Failure} (h : p.encode = .error f) :
    p.signatureHash = .error f ∧
      ∀ backend key, Signer.signPayload backend p key = .error f := by
  constructor
  · rw [signatureHash, h]
    rfl
  · intro backend key
    rw [Signer.signPayload_eq, h]
    rfl

/-- A payload that was built is encoded exactly when the encoder accepts the value of each field. If not,
the first field that is not accepted is the error of encoding, hashing and signing. -/
theorem encode_settles {variant : Variant} {given : List (String × Value)} {p : Payload}
    (h : build variant given = .ok p) (hshort : EachField Short p) (hwhole : EachField Whole p) :
    ((∃ bs, p.encode = .ok bs) → EachField Encodable p) ∧
    (EachField Encodable p → ∃ cs, p.contents? = some cs ∧
      (p.encode = .ok (Rlp.encodeAll (frame p.variant (cs.flatMap Content.items))) ∨
        p.encode = .error tooLong ∧
          Rlp.lengthBound ≤ (Rlp.encodeAll (frame p.variant (cs.flatMap Content.items))).length)) ∧
    (¬EachField Encodable p → ∃ cause, FirstOffence p.variant.layout p.values cause ∧
      p.encode = .fail (.encoding cause) ∧ p.signatureHash = .fail (.encoding cause) ∧
      ∀ backend key, Signer.signPayload backend p key = .fail (.encoding cause)) := by
  have hp := isComplete_of_build h
  have hfails : ¬EachField Encodable p → ∃ cause, FirstOffence p.variant.layout p.values cause ∧
      p.encode = .fail (.encoding cause) := by
    intro hnot
    have hwholeFields := (eachField_iff hp).mp hwhole
    rcases encodable_or_firstOffence ((eachField_iff hp).mp (coerced_of_build h)) hwholeFields with
      hall | ⟨cause, hcause⟩
    · exact absurd ((eachField_iff hp).mpr hall) hnot
    · refine ⟨cause, hcause, ?_⟩
      rw [encode, Payload.items,
        itemsOf_of_firstOffence hcause ((eachField_iff hp).mp hshort) hwholeFields]
      rfl
  refine ⟨?_, encode_of_encodable hp, ?_⟩
  · rintro ⟨bs, hbs⟩
    by_contra hnot
    obtain ⟨cause, -, hencode⟩ := hfails hnot
    rw [hbs] at hencode
    cases hencode
  · intro hnot
    obtain ⟨cause, hcause, hencode⟩ := hfails hnot
    exact ⟨cause, hcause, hencode, signPayload_of_encode_error hencode⟩

/-- Three arguments are wrong, and they are given from the last field to the first. -/
def mistakenArguments : List (String × Value) :=
  [("token", .bytes (Bytes.zeros 20)), ("action", .text "pause"), ("nonce", .bool true),
    ("chain_id", .int (-1)), ("recent_checkpoint", .null), ("recent_epoch", .int 1)]

def mistaken : Payload :=
  ⟨.tokenPause, [.int 1, .null, .int (-1), .bool true, .choice (.pauseAction .pause),
    .address .zero]⟩

/-- The error is about the first of them in the order of the layout. -/
theorem encode_mistaken : build .tokenPause mistakenArguments = .ok mistaken ∧
    EachField Short mistaken ∧ EachField Whole mistaken ∧ ¬EachField Encodable mistaken ∧
    mistaken.encode = .fail (.encoding (.missing "recent_checkpoint")) ∧
    ∀ backend key, Signer.signPayload backend mistaken key =
      .fail (.encoding (.missing "recent_checkpoint")) := by
  have hbuild : build .tokenPause mistakenArguments = .ok mistaken := rfl
  have hone : (1 : Int).natAbs < Integer.textBound := Integer.lt_textBound (by decide)
  have hshort : EachField Short mistaken :=
    (eachField_iff (isComplete_of_build hbuild)).mpr (.cons hone (.cons trivial (.cons hone
      (.cons trivial (.cons trivial (.cons trivial .nil))))))
  have hwhole : EachField Whole mistaken :=
    (eachField_iff (isComplete_of_build hbuild)).mpr (.cons trivial (.cons trivial (.cons trivial
      (.cons trivial (.cons trivial (.cons trivial .nil))))))
  have hnot : ¬EachField Encodable mistaken := by
    intro h
    cases h 1 ⟨"recent_checkpoint", .word, false⟩ .null rfl rfl
  obtain ⟨cause, hfirst, hencode, -, hsign⟩ := (encode_settles hbuild hshort hwhole).2.2 hnot
  have hcause : cause = .missing "recent_checkpoint" := by
    cases hfirst with
    | here h =>
      cases h with
      | outOfRange hout => exact absurd hout (by decide)
      | wrongType _ _ htype => cases htype
    | later _ h =>
      cases h with
      | here h =>
        cases h with
        | missing => rfl
        | wrongType _ hnull _ => exact absurd rfl hnull
      | later hfield _ => cases hfield
  rw [hcause] at hencode hsign
  exact ⟨hbuild, hshort, hwhole, hnot, hencode, hsign⟩

/-- The action is a member of an enumeration of numbers. -/
def numberedArguments : List (String × Value) :=
  [("recent_epoch", .int 1), ("recent_checkpoint", .int 2), ("chain_id", .int 1212101),
    ("nonce", .int 0), ("action", .member "HTTPStatus" "OK" (.int 200)),
    ("token", .bytes (Bytes.zeros 20))]

def numbered : Payload :=
  ⟨.tokenPause, [.int 1, .int 2, .int 1212101, .int 0, .member "HTTPStatus" "OK" (.int 200),
    .address .zero]⟩

/-- The key of the entry is missing. -/
def keylessArguments : List (String × Value) :=
  [("recent_epoch", .int 1), ("recent_checkpoint", .int 2), ("chain_id", .int 1212101),
    ("nonce", .int 0), ("name", .text "Coin"), ("uri", .text ""), ("token", .bytes (Bytes.zeros 20)),
    ("additional_metadata", .list [.pair .null (.text "x")])]

def keyless : Payload :=
  ⟨.tokenMetadataUpdate, [.int 1, .int 2, .int 1212101, .int 0, .text "Coin", .text "", .address .zero,
    .tuple [.pair .null (.text "x")]]⟩

/-- A member of an enumeration is refused for the number that it holds, and a missing key of an entry is
a key of a wrong type. -/
theorem encode_numbered :
    build .tokenPause numberedArguments = .ok numbered ∧
    EachField Short numbered ∧ EachField Whole numbered ∧
    numbered.encode = .fail (.encoding (.invalid "action" (.expected "str" "int"))) ∧
    build .tokenMetadataUpdate keylessArguments = .ok keyless ∧
    keyless.encode =
      .fail (.encoding (.invalid "additional_metadata.key" (.expected "str" "NoneType"))) ∧
    ∀ name what, (EncodingCause.invalid name what).code.number = "4003" := by
  have hbuild : build .tokenPause numberedArguments = .ok numbered := rfl
  have hp := isComplete_of_build hbuild
  have hword {n : Nat} (h : n < 2 ^ 256) : FieldKind.word.Short (.int n) := Integer.lt_textBound h
  have hshort : EachField Short numbered :=
    (eachField_iff hp).mpr (.cons (hword (by decide)) (.cons (hword (by decide))
      (.cons (hword (by decide)) (.cons (hword (by decide)) (.cons trivial (.cons trivial .nil))))))
  have hwhole : EachField Whole numbered :=
    (eachField_iff hp).mpr (.cons trivial (.cons trivial (.cons trivial (.cons trivial (.cons rfl
      (.cons trivial .nil))))))
  exact ⟨hbuild, hshort, hwhole, rfl, rfl, rfl, fun name what => rfl⟩

end Payload

end LedgerClient
