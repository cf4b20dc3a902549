import LedgerClient.Proofs.Amount
import LedgerClient.Proofs.Response.Failure

/-!
# The parts of a response

What a decoder has read from a response is a tree: a record has a part for each of its keys, a list has
a part for each of its elements, and a leaf stands for a single value. A relation says which leaf may be
read from which value. Hashes and the flag of a receipt are read from values of their own type only, a
truth value and a displayed text from any value that stands at their key.
-/

namespace LedgerClient.Response

/-- What is read at one place of a response. -/
inductive Part where
  | absent
  /-- Nothing, because what is there counts as false. -/
  | blank
  | hash (h : Script)
  | word (n : Nat)
  | address (a : Address)
  | amount (a : TokenAmount)
  | fee (n : Int)
  /-- A part of a signature. -/
  | scalar (name : String) (n : Int)
  | flag (b : Bool)
  /-- Whether a value counts as true. -/
  | truth (b : Bool)
  | display (s : Script)
  | displayOrEmpty (s : Script)
  /-- A value that is kept as it is. -/
  | value (v : Value)
  | valueOrNull (v : Value)
  | dictionary (entries : List (Value × Value))
  | list (items : List Part)
  /-- A list for which anything that counts as false may stand. -/
  | listOrNone (items : List Part)
  | record (fields : List (String × Part))

namespace Part

mutual

/-- The part can be read from what stands at its place, `none` when its key is absent. -/
inductive Reads : Part → Option Value → Prop where
  | absent : Reads .absent none
  | null : Reads .absent (some .null)
  | blank {o : Option Value} (h : (o.getD .null).truthy = false) : Reads .blank o
  | hash {v : Value} {s : Script} (hv : v.text? = some s)
      (h : "0x".toList.isPrefixOf s.mended.toList = true) : Reads (.hash s.lower) (some v)
  | wordInt {n : Nat} (h : n < wordBound) : Reads (.word n) (some (.int n))
  | wordText {s : String} {n : Nat} (hs : Integer.readLiteral? s = some (n : Int))
      (h : n < wordBound) : Reads (.word n) (some (.text s))
  | address {s : String} {a : Address} (h : Address.ofHex s = .ok a) :
      Reads (.address a) (some (.text s))
  | amountInt (a : TokenAmount) : Reads (.amount a) (some (.int a.units))
  | amountText {s : String} {a : TokenAmount} (h : TokenAmount.ofText s = .ok a) :
      Reads (.amount a) (some (.text s))
  | feeInt (n : Int) : Reads (.fee n) (some (.int n))
  | feeText {s : String} {n : Int} (h : Integer.read? 10 s = some n) :
      Reads (.fee n) (some (.text s))
  | scalar {name : String} {v : Value} {n : Int} (h : Signature.scalar name v = .ok n) :
      Reads (.scalar name n) (some v)
  | flag (b : Bool) : Reads (.flag b) (some (.bool b))
  | truth (v : Value) : Reads (.truth v.truthy) (some v)
  | display {v : Value} {s : Script} (h : v.script = .ok s) : Reads (.display s) (some v)
  | empty {o : Option Value} (h : (o.getD .null).truthy = false) : Reads (.displayOrEmpty "") o
  | nonempty {v : Value} {s : Script} (hv : v.truthy = true) (h : v.script = .ok s) :
      Reads (.displayOrEmpty s) (some v)
  | value (v : Value) : Reads (.value v) (some v)
  | valueOrNull (o : Option Value) : Reads (.valueOrNull (o.getD .null)) o
  | dictionary {o : Option Value} {entries : List (Value × Value)}
      (h : Response.dictionary (o.getD .null) = .ok entries) : Reads (.dictionary entries) o
  | noList : Reads (.list []) none
  | list {v : Value} {items : List Value} {parts : List Part} (hv : elements v = .ok items)
      (h : ReadsAll parts items) : Reads (.list parts) (some v)
  | blankList {o : Option Value} (h : (o.getD .null).truthy = false) : Reads (.listOrNone []) o
  | fullList {v : Value} {items : List Value} {parts : List Part} (htrue : v.truthy = true)
      (hv : elements v = .ok items) (h : ReadsAll parts items) : Reads (.listOrNone parts) (some v)
  | record {fields : List (String × Part)} {entries : List (Value × Value)}
      (h : ∀ f ∈ fields, Reads f.2 (Value.lookup f.1 entries)) :
      Reads (.record fields) (some (.dict entries))

/-- Each part can be read from the element at its position. -/
inductive ReadsAll : List Part → List Value → Prop where
  | nil : ReadsAll [] []
  | cons {p : Part} {v : Value} {parts : List Part} {items : List Value} (h : Reads p (some v))
      (hrest : ReadsAll parts items) : ReadsAll (p :: parts) (v :: items)

end

theorem reads_value_iff {v : Value} {o : Option Value} : (Part.value v).Reads o ↔ o = some v := by
  constructor
  · intro h
    cases h
    rfl
  · rintro rfl
    exact .value v

/-- Any value is read as a truth value. -/
theorem reads_truth_iff {b : Bool} {o : Option Value} :
    (Part.truth b).Reads o ↔ ∃ v, (Part.value v).Reads o ∧ v.truthy = b := by
  constructor
  · intro h
    cases h with
    | truth v => exact ⟨v, .value v, rfl⟩
  · rintro ⟨v, hv, rfl⟩
    rw [reads_value_iff.mp hv]
    exact .truth v

/-- What may be absent is a part of its own when it is. -/
def ofOption {α : Type} (part : α → Part) : Option α → Part
  | none => .absent
  | some a => part a

theorem reads_record_iff {fields : List (String × Part)} {data : Value} :
    (Part.record fields).Reads (some data) ↔
      ∃ entries, data = .dict entries ∧ ∀ f ∈ fields, f.2.Reads (Value.lookup f.1 entries) := by
  constructor
  · intro h
    cases h with
    | record h => exact ⟨_, rfl, h⟩
  · rintro ⟨entries, rfl, h⟩
    exact .record h

end Part

/-! ## Readers and what they read -/

section

variable {α β : Type} {entries : List (Value × Value)} {key : String} {b : β}

theorem require_bind {f : Value → Result β} :
    (require (.dict entries) key >>= f) = .ok b ↔
      ∃ v, Value.lookup key entries = some v ∧ f v = .ok b := by
  simp only [require, Value.require]
  cases Value.lookup key entries with
  | none =>
    refine iff_of_false error_ne_ok ?_
    rintro ⟨v, hv, -⟩
    cases hv
  | some v =>
    constructor
    · intro h
      exact ⟨v, rfl, h⟩
    · rintro ⟨w, hw, h⟩
      cases hw
      exact h

theorem optional_bind {f : Value → Result β} :
    (optional (.dict entries) key >>= f) = f ((Value.lookup key entries).getD .null) := rfl

/-- What begins with a key is read from an object only. -/
theorem eq_dict_of_require_bind {data : Value} {f : Value → Result β}
    (h : (require data key >>= f) = .ok b) : ∃ entries, data = .dict entries := by
  obtain ⟨v, hv, -⟩ := bind_eq_ok.mp h
  exact eq_dict_of_require hv

theorem eq_dict_of_optional_bind {data : Value} {f : Value → Result β}
    (h : (optional data key >>= f) = .ok b) : ∃ entries, data = .dict entries := by
  obtain ⟨v, hv, -⟩ := bind_eq_ok.mp h
  exact eq_dict_of_optional hv

theorem eq_dict_of_fault_bind {data : Value} {f : Value → Except Fault β}
    (h : Result.ofFault (data.require key >>= f) = .ok b) : ∃ entries, data = .dict entries := by
  obtain ⟨v, hv, -⟩ := bind_eq_ok.mp (ofFault_eq_ok.mp h)
  exact Value.eq_dict_of_require hv

/-- A reader reads these parts, each from a value and none from its absence. -/
structure Describes (read : Value → Result α) (part : α → Part) : Prop where
  read_eq_ok : ∀ {v a}, read v = .ok a ↔ (part a).Reads (some v)
  not_absent : ∀ {a}, ¬(part a).Reads none

/-- A reader reads these parts from a value or, as from null, from its absence. -/
def DescribesOptional (read : Value → Result α) (part : α → Part) : Prop :=
  ∀ {o : Option Value} {a}, read (o.getD .null) = .ok a ↔ (part a).Reads o

variable {read : Value → Result α} {part : α → Part} {f : α → Result β}

theorem Describes.require_eq_ok (h : Describes read part) {a : α} :
    (require (.dict entries) key >>= read) = .ok a ↔
      (part a).Reads (Value.lookup key entries) := by
  rw [Response.require_bind]
  constructor
  · rintro ⟨v, hlookup, hread⟩
    rw [hlookup]
    exact h.read_eq_ok.mp hread
  · intro ha
    cases hlookup : Value.lookup key entries with
    | none =>
      rw [hlookup] at ha
      exact (h.not_absent ha).elim
    | some v =>
      rw [hlookup] at ha
      exact ⟨v, rfl, h.read_eq_ok.mpr ha⟩

theorem Describes.require_bind (h : Describes read part) :
    (require (.dict entries) key >>= fun v => read v >>= f) = .ok b ↔
      ∃ a, (part a).Reads (Value.lookup key entries) ∧ f a = .ok b := by
  rw [← bind_assoc, bind_eq_ok]
  exact exists_congr fun a => and_congr_left fun _ => h.require_eq_ok

/-- The same for a reader that fails with plain faults. -/
theorem Describes.fault_bind {read : Value → Except Fault α} {f : α → Except Fault β}
    (h : Describes (fun v => Result.ofFault (read v)) part) :
    ((Value.dict entries).require key >>= fun v => read v >>= f) = .ok b ↔
      ∃ a, (part a).Reads (Value.lookup key entries) ∧ f a = .ok b := by
  have hlift : Result.ofFault ((Value.dict entries).require key >>= fun v => read v >>= f) =
      require (.dict entries) key >>= fun v => Result.ofFault (read v) >>= fun a =>
        Result.ofFault (f a) := by
    simp only [ofFault_bind]
    rfl
  rw [← ofFault_eq_ok, hlift, h.require_bind]
  simp only [ofFault_eq_ok]

theorem DescribesOptional.optional_bind (h : DescribesOptional read part) :
    (optional (.dict entries) key >>= fun v => read v >>= f) = .ok b ↔
      ∃ a, (part a).Reads (Value.lookup key entries) ∧ f a = .ok b := by
  rw [Response.optional_bind, bind_eq_ok]
  exact exists_congr fun a => and_congr_left fun _ => h

theorem Describes.absentOr (h : Describes read part) (hnull : ∀ a, read .null ≠ .ok a) :
    DescribesOptional (absentOr read) (Part.ofOption part) := by
  intro o a
  have hread {v : Value} (hv : v.isNull = false) :
      Response.absentOr read v = .ok a ↔ (Part.ofOption part a).Reads (some v) := by
    have habsent : Response.absentOr read v = read v >>= fun a => .ok (some a) := if_neg (by simp [hv])
    rw [habsent, bind_eq_ok]
    cases a with
    | none =>
      refine iff_of_false ?_ ?_
      · rintro ⟨_, -, hne⟩
        cases hne
      · intro hreads
        cases hreads
        cases hv
    | some a =>
      constructor
      · rintro ⟨a', ha', heq⟩
        cases heq
        exact h.read_eq_ok.mp ha'
      · intro hreads
        exact ⟨a, h.read_eq_ok.mpr hreads, rfl⟩
  cases o with
  | none =>
    cases a with
    | none => exact iff_of_true rfl .absent
    | some a => exact iff_of_false (fun heq => by cases heq) h.not_absent
  | some v =>
    cases v with
    | null =>
      cases a with
      | none => exact iff_of_true rfl .null
      | some a =>
        refine iff_of_false (fun heq => by cases heq) fun hreads => ?_
        exact hnull a (h.read_eq_ok.mpr hreads)
    | _ => exact hread rfl

theorem Describes.optionalAt_bind (h : Describes read part) (hnull : ∀ a, read .null ≠ .ok a)
    {f : Option α → Result β} :
    ((optional (.dict entries) key >>= fun v => Response.absentOr read v) >>= f) = .ok b ↔
      ∃ o, (Part.ofOption part o).Reads (Value.lookup key entries) ∧ f o = .ok b := by
  rw [Response.optional_bind, bind_eq_ok]
  exact exists_congr fun o => and_congr_left fun _ => h.absentOr hnull

/-! ### Leaves -/

theorem describes_hash : Describes hashText .hash where
  not_absent h := by cases h
  read_eq_ok {v h} := by
    have hrefuse (shown : Except Fault String) : (do
        let text ← Result.ofFault shown
        .error (.fault (.refused (.notHash text))) : Result Script) ≠ .ok h := by
      cases shown with
      | error g => exact error_ne_ok
      | ok text => exact error_ne_ok
    constructor
    · intro hread
      unfold hashText at hread
      simp only at hread
      split at hread
      · next hv =>
        split at hread
        · next hmark =>
          cases hread
          exact .hash hv hmark
        · exact absurd hread (hrefuse _)
      · exact absurd hread (hrefuse _)
    · intro hreads
      cases hreads with
      | hash hv hmark =>
        unfold hashText
        rw [hv]
        exact if_pos hmark

theorem inWord_natCast {n : Nat} (h : n < wordBound) : inWord n = .ok n := by
  rw [inWord, Int.toNat_natCast, if_pos ⟨Int.natCast_nonneg n, h⟩]

theorem describes_word : Describes word .word where
  not_absent h := by cases h
  read_eq_ok {v n} := by
    constructor
    · intro hread
      unfold word at hread
      split at hread
      · obtain ⟨hlt, rfl⟩ := inWord_eq_ok hread
        exact .wordInt hlt
      · next s =>
        split at hread
        · next hs =>
          obtain ⟨hlt, rfl⟩ := inWord_eq_ok hread
          exact .wordText hs hlt
        · cases hread
      · cases hread
      · cases hread
    · intro hreads
      cases hreads with
      | wordInt hlt => exact inWord_natCast hlt
      | wordText hs hlt =>
        simp only [word, hs]
        exact inWord_natCast hlt

theorem describes_address : Describes Address.decode .address where
  not_absent h := by cases h
  read_eq_ok {v a} := by
    constructor
    · intro hread
      cases v with
      | text s => exact .address hread
      | torn t => exact absurd hread (Address.ofTorn_ne_ok t a)
      | _ => cases hread
    · intro hreads
      cases hreads with
      | address h => exact h

theorem describes_amount : Describes amount .amount where
  not_absent h := by cases h
  read_eq_ok {v a} := by
    constructor
    · intro hread
      cases v with
      | text s => exact .amountText hread
      | int n =>
        rw [TokenAmount.ofInt_eq_ok_iff.mp hread]
        exact .amountInt a
      | _ => cases hread
    · intro hreads
      cases hreads with
      | amountInt => exact TokenAmount.ofInt_units a
      | amountText h => exact h

theorem describes_fee : Describes fee .fee where
  not_absent h := by cases h
  read_eq_ok {v n} := by
    constructor
    · intro hread
      unfold fee at hread
      split at hread
      · cases hread
        exact .feeInt n
      · split at hread
        · next hs =>
          cases hread
          exact .feeText hs
        · cases hread
      · cases hread
      · cases hread
    · intro hreads
      cases hreads with
      | feeInt => rfl
      | feeText h => simp only [fee, h]

theorem describes_scalar (name : String) :
    Describes (fun v => Result.ofFault (Signature.scalar name v)) (.scalar name) where
  not_absent h := by cases h
  read_eq_ok {v n} := by
    rw [ofFault_eq_ok]
    constructor
    · exact .scalar
    · intro hreads
      cases hreads with
      | scalar h => exact h

theorem describes_flag : Describes successFlag .flag where
  not_absent h := by cases h
  read_eq_ok {v b} := by
    constructor
    · intro hread
      cases v with
      | bool b =>
        cases hread
        exact .flag b
      | _ => cases hread
    · intro hreads
      cases hreads with
      | flag => rfl

theorem describes_display : Describes (fun v => Result.ofFault v.script) .display where
  not_absent h := by cases h
  read_eq_ok {v s} := by
    rw [ofFault_eq_ok]
    constructor
    · exact .display
    · intro hreads
      cases hreads with
      | display h => exact h

/-- A value that is kept. -/
theorem require_value_bind (key : String) {f : Value → Result β} :
    (require (.dict entries) key >>= f) = .ok b ↔
      ∃ v, (Part.value v).Reads (Value.lookup key entries) ∧ f v = .ok b := by
  rw [require_bind]
  exact exists_congr fun v => and_congr_left fun _ => Part.reads_value_iff.symm

theorem optional_value_bind (key : String) {f : Value → Result β} :
    (optional (.dict entries) key >>= f) = .ok b ↔
      ∃ v, (Part.valueOrNull v).Reads (Value.lookup key entries) ∧ f v = .ok b := by
  rw [optional_bind]
  constructor
  · intro h
    exact ⟨_, .valueOrNull _, h⟩
  · rintro ⟨v, hreads, h⟩
    cases hreads
    exact h

theorem describes_displayed : Describes displayed .display := describes_display

theorem describes_displayOrEmpty : DescribesOptional displayedOrEmpty .displayOrEmpty := by
  intro o s
  unfold displayedOrEmpty
  split
  · next htrue =>
    rw [displayed, ofFault_eq_ok]
    cases o with
    | none => cases htrue
    | some v =>
      constructor
      · exact .nonempty htrue
      · intro hreads
        cases hreads with
        | empty hfalse => rw [hfalse] at htrue; cases htrue
        | nonempty _ h => exact h
  · next hfalse =>
    rw [Bool.not_eq_true] at hfalse
    constructor
    · intro hread
      cases hread
      exact .empty hfalse
    · intro hreads
      cases hreads with
      | empty _ => rfl
      | nonempty htrue _ => rw [Option.getD_some, htrue] at hfalse; cases hfalse

theorem optionalWord_bind {f : Option Nat → Result β} :
    (optionalWord (.dict entries) key >>= f) = .ok b ↔
      ∃ o, (Part.ofOption .word o).Reads (Value.lookup key entries) ∧ f o = .ok b :=
  describes_word.optionalAt_bind fun _ => error_ne_ok

theorem optionalHash_bind {f : Option Script → Result β} :
    (optionalHash (.dict entries) key >>= f) = .ok b ↔
      ∃ o, (Part.ofOption .hash o).Reads (Value.lookup key entries) ∧ f o = .ok b :=
  describes_hash.optionalAt_bind fun _ => error_ne_ok

theorem optionalAddress_bind {f : Option Address → Result β} :
    (optionalAddress (.dict entries) key >>= f) = .ok b ↔
      ∃ o, (Part.ofOption .address o).Reads (Value.lookup key entries) ∧ f o = .ok b :=
  describes_address.optionalAt_bind fun _ => error_ne_ok

theorem describes_dictionary :
    DescribesOptional (fun v => Result.ofFault (dictionary v)) .dictionary := by
  intro o es
  rw [ofFault_eq_ok]
  constructor
  · exact .dictionary
  · intro hreads
    cases hreads with
    | dictionary h => exact h

/-! ### Lists -/

theorem readAll_eq_ok (h : Describes read part) {items : List Value} {as : List α} :
    readAll read items = .ok as ↔ Part.ReadsAll (as.map part) items := by
  induction items generalizing as with
  | nil =>
    cases as with
    | nil => exact iff_of_true rfl .nil
    | cons a rest => exact iff_of_false (fun heq => by cases heq) fun hreads => by cases hreads
  | cons v rest ih =>
    have hcons : readAll read (v :: rest) = .ok as ↔
        ∃ a, read v = .ok a ∧ ∃ others, readAll read rest = .ok others ∧ a :: others = as := by
      rw [readAll, bind_eq_ok]
      simp only [bind_eq_ok, pure_eq_ok]
    rw [hcons]
    constructor
    · rintro ⟨a, ha, others, hothers, rfl⟩
      exact .cons (h.read_eq_ok.mp ha) (ih.mp hothers)
    · intro hreads
      cases as with
      | nil => cases hreads
      | cons a others =>
        cases hreads with
        | cons ha hothers => exact ⟨a, h.read_eq_ok.mpr ha, others, ih.mpr hothers, rfl⟩

theorem listAt_eq_ok (h : Describes read part) {as : List α} :
    listAt read (.dict entries) key = .ok as ↔
      (Part.list (as.map part)).Reads (Value.lookup key entries) := by
  rw [listAt]
  cases Value.lookup key entries with
  | none =>
    constructor
    · intro hread
      cases hread
      exact .noList
    · intro hreads
      generalize hparts : as.map part = parts at hreads
      cases hreads
      rw [List.map_eq_nil_iff.mp hparts]
  | some v =>
    simp only [bind_eq_ok, ofFault_eq_ok]
    constructor
    · rintro ⟨items, hitems, hall⟩
      exact .list hitems ((readAll_eq_ok h).mp hall)
    · intro hreads
      generalize hparts : as.map part = parts at hreads
      cases hreads with
      | list hitems hall =>
        subst hparts
        exact ⟨_, hitems, (readAll_eq_ok h).mpr hall⟩

theorem listAt_bind (h : Describes read part) {f : List α → Result β} :
    (listAt read (.dict entries) key >>= f) = .ok b ↔
      ∃ as, (Part.list (as.map part)).Reads (Value.lookup key entries) ∧ f as = .ok b := by
  rw [bind_eq_ok]
  exact exists_congr fun as => and_congr_left fun _ => listAt_eq_ok h

theorem listOrNone_bind (h : Describes read part) {f : List α → Result β} :
    (optional (.dict entries) key >>= fun v => Result.ofFault (elementsOrNone v) >>= fun items =>
      readAll read items >>= f) = .ok b ↔
      ∃ as, (Part.listOrNone (as.map part)).Reads (Value.lookup key entries) ∧ f as = .ok b := by
  rw [Response.optional_bind]
  generalize Value.lookup key entries = o
  unfold elementsOrNone
  cases htrue : (o.getD .null).truthy with
  | false =>
    constructor
    · intro hread
      exact ⟨[], .blankList htrue, hread⟩
    · rintro ⟨as, hreads, hf⟩
      cases as with
      | nil => exact hf
      | cons a rest =>
        rw [List.map_cons] at hreads
        cases hreads with
        | fullList hv => rw [Option.getD_some, hv] at htrue; cases htrue
  | true =>
    cases o with
    | none => cases htrue
    | some v =>
      have hread : (Result.ofFault (if true = true then elements v else .ok []) >>= fun items =>
          readAll read items >>= f) = .ok b ↔
          ∃ items, elements v = .ok items ∧ ∃ as, readAll read items = .ok as ∧ f as = .ok b := by
        simp only [if_true, bind_eq_ok, ofFault_eq_ok]
      rw [Option.getD_some, hread]
      constructor
      · rintro ⟨items, hitems, as, has, hf⟩
        exact ⟨as, .fullList htrue hitems ((readAll_eq_ok h).mp has), hf⟩
      · rintro ⟨as, hreads, hf⟩
        generalize hparts : as.map part = parts at hreads
        cases hreads with
        | blankList hfalse => rw [hfalse] at htrue; cases htrue
        | fullList _ hitems hall =>
          subst hparts
          exact ⟨_, hitems, as, (readAll_eq_ok h).mpr hall, hf⟩

end

end LedgerClient.Response
