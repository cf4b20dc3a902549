import LedgerClient.Proofs.Address
import LedgerClient.Proofs.Amount
import LedgerClient.Proofs.Payload.Construction
import LedgerClient.Proofs.Value.Text

/-!
# How building a payload is refused

An argument that cannot be brought to the form of its field is refused by an error about the encoding.
Three things escape it: a dictionary that stands for a metadata entry and lacks a key, an entry with an
integer in it that has no text, and an amount whose digits are beyond the limit.
-/

namespace LedgerClient

open Failure

/-! ## Choices -/

theorem Choice.isEncoding_ofText (family : Family) (s : String) :
    FailsOnly IsEncoding (ofText family s) := by
  unfold ofText
  simp only
  split
  · exact .ok _
  · exact failsOnly_encoding _

/-! ## Faults that escape -/

/-- The computation fails by errors about an encoding, except for these faults, by which it fails. -/
structure Escaping {α : Type} (escapes : Fault → Prop) (x : Result α) : Prop where
  failsOnly : FailsOnly (fun f => f.IsEncoding ∨ ∃ g, f = .fault g ∧ escapes g) x
  fault : ∀ g, escapes g → x = .error (.fault g)

namespace Escaping

variable {α β : Type} {P Q : Fault → Prop} {x : Result α} {f : α → Result β}

theorem ok {a : α} (h : ∀ g, ¬P g) : Escaping P (.ok a : Result α) where
  failsOnly := .ok a
  fault g hg := (h g hg).elim

theorem none (hx : FailsOnly IsEncoding x) (h : ∀ g, ¬P g) : Escaping P x where
  failsOnly := hx.mono fun _ => .inl
  fault g hg := (h g hg).elim

theorem error {g : Fault} (hg : P g) (h : ∀ g', P g' → g' = g) :
    Escaping P (.error (.fault g) : Result α) where
  failsOnly := .error (.inr ⟨g, rfl, hg⟩)
  fault g' hg' := by rw [h g' hg']

theorem congr (hx : Escaping P x) (h : ∀ g, P g ↔ Q g) : Escaping Q x where
  failsOnly := hx.failsOnly.mono fun _ hf => hf.imp_right fun ⟨g, heq, hg⟩ => ⟨g, heq, (h g).mp hg⟩
  fault g hg := hx.fault g ((h g).mpr hg)

theorem eq_fault_iff (h : Escaping P x) {g : Fault} : x = .error (.fault g) ↔ P g := by
  constructor
  · intro hx
    rcases h.failsOnly _ hx with ⟨cause, hcause⟩ | ⟨g', hg', hp⟩
    · cases hcause
    · cases hg'
      exact hp
  · exact h.fault g

theorem bind {R : α → Fault → Prop} (hx : Escaping P x) (hf : ∀ a, x = .ok a → Escaping (R a) (f a)) :
    Escaping (fun g => P g ∨ ∃ a, x = .ok a ∧ R a g) (x >>= f) where
  failsOnly := by
    refine .bind (hx.failsOnly.mono ?_) fun a ha => (hf a ha).failsOnly.mono ?_
    · rintro e (hencoding | ⟨g, heq, hg⟩)
      · exact .inl hencoding
      · exact .inr ⟨g, heq, .inl hg⟩
    · rintro e (hencoding | ⟨g, heq, hg⟩)
      · exact .inl hencoding
      · exact .inr ⟨g, heq, .inr ⟨a, ha, hg⟩⟩
  fault g hg := by
    rw [bind_eq_error]
    rcases hg with hg | ⟨a, ha, hg⟩
    · exact .inl (hx.fault g hg)
    · exact .inr ⟨a, ha, (hf a ha).fault g hg⟩

theorem map (hx : Escaping P x) (k : α → β) : Escaping P (x >>= fun a => .ok (k a)) := by
  have hbind := hx.bind (f := fun a => .ok (k a)) fun a _ => ok (P := fun _ => False) fun _ => id
  refine hbind.congr fun g => or_iff_left ?_
  rintro ⟨a, -, hfalse⟩
  exact hfalse

end Escaping

/-! ## Amounts -/

namespace TokenAmount

/-- An integer without a text, or digits beyond the limit. -/
inductive IsEndless : Value → Prop where
  | int {n : Int} (h : Integer.textBound ≤ n.natAbs) : IsEndless (.int n)
  | text {s : String} {digits : List Nat} (hs : wireDigits? (Text.trimChars s.toList) = some digits)
      (h : Integer.digitLimit < digits.length) : IsEndless (.text s)

theorem escaping_ofInt (n : Int) :
    Escaping (fun g : Fault => g = .badValue ∧ Integer.textBound ≤ n.natAbs) (ofInt n) := by
  by_cases hn : Integer.textBound ≤ n.natAbs
  · rw [ofInt_of_textless hn]
    exact .error ⟨rfl, hn⟩ fun _ hg => hg.1
  · have hnone : ∀ g : Fault, ¬(g = .badValue ∧ Integer.textBound ≤ n.natAbs) := fun g hg => hn hg.2
    by_cases hin : ∃ a : TokenAmount, n = a.units
    · obtain ⟨a, rfl⟩ := hin
      rw [ofInt_units]
      exact .ok hnone
    · rw [ofInt_of_shown (fun a ha => hin ⟨a, ha⟩) (Nat.lt_of_not_le hn)]
      exact .none (failsOnly_encoding _) hnone

/-- Digits within the limit denote an integer with a text. -/
theorem escaping_ofText (s : String) :
    Escaping (fun g : Fault => g = .badValue ∧ IsEndless (.text s)) (ofText s) := by
  unfold ofText
  cases hs : wireDigits? (Text.trimChars s.toList) with
  | none =>
    refine .none (failsOnly_encoding _) fun g hg => ?_
    cases hg.2 with
    | text hs' => rw [hs] at hs'; cases hs'
  | some digits =>
    by_cases hlong : Integer.digitLimit < digits.length
    · simp only [if_pos hlong]
      exact .error ⟨rfl, .text hs hlong⟩ fun _ hg => hg.1
    · simp only [if_neg hlong]
      have hshort : ¬IsEndless (.text s) := by
        intro h
        cases h with
        | text hs' hlong' =>
          rw [hs] at hs'
          cases hs'
          exact hlong hlong'
      have hbound : ¬Integer.textBound ≤ (Integer.ofDigits 10 digits : Int).natAbs :=
        Nat.not_le.mpr ((isNumeral_iff.mpr hs).lt_textBound (Nat.le_of_not_lt hlong))
      exact (escaping_ofInt _).congr fun g =>
        iff_of_false (fun hg => hbound hg.2) fun hg => hshort hg.2

theorem escaping_coerce (v : Value) :
    Escaping (fun g : Fault => g = .badValue ∧ IsEndless v) (coerce v) := by
  cases v with
  | int n =>
    refine (escaping_ofInt n).congr fun g => and_congr_right fun _ => ?_
    constructor
    · exact .int
    · intro h
      cases h with
      | int h => exact h
  | text s => exact escaping_ofText s
  | amount a => exact .ok fun g hg => by cases hg.2
  | _ => exact .none (failsOnly_encoding _) fun g hg => by cases hg.2

end TokenAmount

/-! ## Metadata -/

namespace Metadata

/-- A dictionary that is read as an entry, key before value, and the fault that escapes there. -/
inductive EntryEscapes (entries : List (Value × Value)) : Fault → Prop where
  | noKey (hkey : Value.lookup "key" entries = none) : EntryEscapes entries (.missingKey "key")
  | keyTextless {k : Value} (hkey : Value.lookup "key" entries = some k) (hk : k.isTextless = true) :
      EntryEscapes entries .badValue
  | noValue {k : Value} (hkey : Value.lookup "key" entries = some k) (hk : k.isTextless = false)
      (hvalue : Value.lookup "value" entries = none) : EntryEscapes entries (.missingKey "value")
  | valueTextless {k v : Value} (hkey : Value.lookup "key" entries = some k)
      (hk : k.isTextless = false) (hvalue : Value.lookup "value" entries = some v)
      (hv : v.isTextless = true) : EntryEscapes entries .badValue

/-- The faults that escape from metadata. -/
def escapees : List Fault := [.badValue, .missingKey "key", .missingKey "value"]

theorem mem_of_entryEscapes {entries : List (Value × Value)} {g : Fault}
    (h : EntryEscapes entries g) : g ∈ escapees := by
  cases h <;> decide

theorem eq_of_entryEscapes {entries : List (Value × Value)} {g h : Fault}
    (hg : EntryEscapes entries g) (hh : EntryEscapes entries h) : h = g := by
  cases hg <;> cases hh <;> simp_all

/-- The entry when the key and its text are there. -/
theorem ofDict_of_key {entries : List (Value × Value)} {k : Value} {key : Script}
    (hkey : Value.lookup "key" entries = some k) (hk : k.script = .ok key) :
    Entry.ofDict (.dict entries) = (Value.dict entries).require "value" >>= fun v =>
      v.script >>= fun value => .ok ⟨key, value⟩ := by
  have hrequire : (Value.dict entries).require "key" = .ok k := by rw [Value.require, hkey]
  rw [Entry.ofDict, hrequire]
  show k.script >>= _ = _
  rw [hk]
  rfl

theorem escaping_ofDict {entries : List (Value × Value)} (hplain : Value.allEntriesPlain entries = true) :
    Escaping (EntryEscapes entries) (Result.ofFault (Entry.ofDict (.dict entries))) := by
  have hescapes {g : Fault} (hg : EntryEscapes entries g)
      (heq : Entry.ofDict (.dict entries) = .error g) :
      Escaping (EntryEscapes entries) (Result.ofFault (Entry.ofDict (.dict entries))) := by
    rw [heq]
    exact .error hg fun _ hg' => eq_of_entryEscapes hg hg'
  cases hkey : Value.lookup "key" entries with
  | none =>
    refine hescapes (.noKey hkey) ?_
    rw [Entry.ofDict, Value.require, hkey]
    rfl
  | some k =>
    have hscript := Value.answersUnless_script (Value.isPlain_of_lookup hplain hkey)
    cases hk : k.isTextless with
    | true =>
      refine hescapes (.keyTextless hkey hk) ?_
      have hrequire : (Value.dict entries).require "key" = .ok k := by rw [Value.require, hkey]
      rw [Entry.ofDict, hrequire]
      show k.script >>= _ = _
      rw [hscript.eq_error_iff.mpr ⟨hk, rfl⟩]
      rfl
    | false =>
      obtain ⟨key, hkeyText⟩ := hscript.exists_ok_iff.mpr hk
      have hentry := ofDict_of_key hkey hkeyText
      cases hvalue : Value.lookup "value" entries with
      | none =>
        refine hescapes (.noValue hkey hk hvalue) ?_
        rw [hentry, Value.require, hvalue]
        rfl
      | some v =>
        have hrequire : (Value.dict entries).require "value" = .ok v := by rw [Value.require, hvalue]
        have hscript := Value.answersUnless_script (Value.isPlain_of_lookup hplain hvalue)
        rw [hrequire] at hentry
        cases hv : v.isTextless with
        | true =>
          refine hescapes (.valueTextless hkey hk hvalue hv) ?_
          rw [hentry]
          show v.script >>= _ = _
          rw [hscript.eq_error_iff.mpr ⟨hv, rfl⟩]
          rfl
        | false =>
          obtain ⟨value, hvalueText⟩ := hscript.exists_ok_iff.mpr hv
          have hok : Entry.ofDict (.dict entries) = .ok ⟨key, value⟩ := by
            rw [hentry]
            show v.script >>= _ = _
            rw [hvalueText]
            rfl
          rw [hok]
          refine .ok fun g hg => ?_
          cases hg <;> simp_all

/-- The fault that escapes from the first element that is not read as a pair. -/
inductive ElementsEscape : List Value → Fault → Prop where
  | here {entries : List (Value × Value)} {rest : List Value} {g : Fault}
      (h : EntryEscapes entries g) : ElementsEscape (.dict entries :: rest) g
  | later {item pair : Value} {rest : List Value} {g : Fault} (hitem : element item = .ok pair)
      (h : ElementsEscape rest g) : ElementsEscape (item :: rest) g

theorem mem_of_elementsEscape {items : List Value} {g : Fault} (h : ElementsEscape items g) :
    g ∈ escapees := by
  induction h with
  | here h => exact mem_of_entryEscapes h
  | later _ _ ih => exact ih

/-- Only dictionaries are read as entries. -/
theorem escaping_element {item : Value} (hplain : item.isPlain = true) :
    Escaping (fun g => ∃ entries, item = .dict entries ∧ EntryEscapes entries g) (element item) := by
  cases item with
  | pair key value => exact .ok fun g hg => by obtain ⟨_, heq, -⟩ := hg; cases heq
  | dict entries =>
    refine ((escaping_ofDict hplain).map Entry.toValue).congr fun g => ?_
    constructor
    · intro hg
      exact ⟨entries, rfl, hg⟩
    · rintro ⟨_, heq, hg⟩
      cases heq
      exact hg
  | _ => exact .none (failsOnly_encoding _) fun g hg => by obtain ⟨_, heq, -⟩ := hg; cases heq

theorem escaping_elements {items : List Value} (hplain : Value.allPlain items = true) :
    Escaping (ElementsEscape items) (elements items) := by
  induction items with
  | nil => exact .ok fun g hg => by cases hg
  | cons item rest ih =>
    rw [Value.allPlain, Bool.and_eq_true] at hplain
    have hrest := ih hplain.2
    -- Elements are read from the left: one that is refused keeps the others from being looked at.
    refine ((escaping_element hplain.1).bind fun p _ => hrest.map fun others => p :: others).congr ?_
    intro g
    constructor
    · rintro (⟨entries, rfl, hg⟩ | ⟨p, hp, hg⟩)
      · exact .here hg
      · exact .later hp hg
    · intro hg
      cases hg with
      | here h => exact .inl ⟨_, rfl, h⟩
      | later hitem h => exact .inr ⟨_, hitem, h⟩

/-- Only a list or a tuple of elements lets a fault escape. -/
inductive PairsEscape : Value → Fault → Prop where
  | list {items : List Value} {g : Fault} (h : ElementsEscape items g) : PairsEscape (.list items) g
  | tuple {items : List Value} {g : Fault} (h : ElementsEscape items g) : PairsEscape (.tuple items) g

theorem escaping_pairs {v : Value} (hplain : v.isPlain = true) :
    Escaping (PairsEscape v) (pairs v) := by
  unfold pairs
  split
  · next hempty =>
    refine .ok fun g hg => ?_
    cases hg with
    | list h => cases h <;> cases hempty
    | tuple h => cases h <;> cases hempty
  · cases v with
    | dict entries => exact .ok fun g hg => by cases hg
    | list items =>
      refine (escaping_elements hplain).congr fun g => ⟨.list, fun hg => ?_⟩
      cases hg with
      | list h => exact h
    | tuple items =>
      refine (escaping_elements hplain).congr fun g => ⟨.tuple, fun hg => ?_⟩
      cases hg with
      | tuple h => exact h
    | _ => exact .none (failsOnly_encoding _) fun g hg => by cases hg

end Metadata

/-! ## Fields -/

namespace Payload

/-- The fault that escapes from a value given for a field. -/
inductive FieldEscapes : FieldKind → Value → Fault → Prop where
  | amount {v : Value} (h : TokenAmount.IsEndless v) : FieldEscapes .amount v .badValue
  | metadata {v : Value} {g : Fault} (h : Metadata.PairsEscape v g) : FieldEscapes .metadata v g

theorem escaping_coerceField (f : Field) {v : Value} (hplain : v.isPlain = true) :
    Escaping (FieldEscapes f.kind v) (coerceField f v) := by
  obtain ⟨name, kind, isOptional⟩ := f
  cases kind with
  | metadata =>
    rw [coerceField_metadata_eq]
    refine ((Metadata.escaping_pairs hplain).map Value.tuple).congr fun g => ⟨.metadata, fun hg => ?_⟩
    cases hg with
    | metadata h => exact h
  | amount =>
    cases v with
    | null => exact .ok fun g hg => by cases hg with | amount h => cases h
    | _ =>
      refine ((TokenAmount.escaping_coerce _).map Value.amount).congr fun g => ?_
      constructor
      · rintro ⟨rfl, h⟩
        exact .amount h
      · intro hg
        cases hg with
        | amount h => exact ⟨rfl, h⟩
  | address =>
    cases v with
    | null => exact .ok fun g hg => by cases hg
    | _ => exact .none (.bind (Address.isEncoding_coerce _ _) fun _ _ => .ok _) fun g hg => by cases hg
  | choice family =>
    cases v with
    | text s =>
      exact .none (.bind (Choice.isEncoding_ofText family s) fun _ _ => .ok _) fun g hg => by cases hg
    | torn t =>
      exact .none (.bind (Choice.isEncoding_ofText family t.mended) fun _ _ => .ok _) fun g hg => by
        cases hg
    | _ => exact .ok fun g hg => by cases hg
  | _ => cases v <;> exact .ok fun g hg => by cases hg

/-- The fault that escapes from the first field whose argument is not accepted. -/
inductive FieldsEscape : List Field → List Value → Fault → Prop where
  | here {f : Field} {fields : List Field} {v : Value} {values : List Value} {g : Fault}
      (h : FieldEscapes f.kind v g) : FieldsEscape (f :: fields) (v :: values) g
  | later {f : Field} {fields : List Field} {v w : Value} {values : List Value} {g : Fault}
      (hfield : coerceField f v = .ok w) (h : FieldsEscape fields values g) :
      FieldsEscape (f :: fields) (v :: values) g

theorem escaping_coerceFields (fields : List Field) {values : List Value}
    (hplain : Value.allPlain values = true) :
    Escaping (FieldsEscape fields values) (coerceFields fields values) := by
  induction fields generalizing values with
  | nil => exact .ok fun g hg => by cases hg
  | cons f fields ih =>
    cases values with
    | nil => exact .ok fun g hg => by cases hg
    | cons v values =>
      rw [Value.allPlain, Bool.and_eq_true] at hplain
      have hfield := escaping_coerceField f hplain.1
      have hrest := ih hplain.2
      refine (hfield.bind fun w _ => hrest.map fun others => w :: others).congr fun g => ?_
      constructor
      · rintro (hg | ⟨w, hw, hg⟩)
        · exact .here hg
        · exact .later hw hg
      · intro hg
        cases hg with
        | here h => exact .inl h
        | later hw h => exact .inr ⟨_, hw, h⟩

/-! ## Calls -/

/-- The names are those of the variant, and every required field is given. -/
structure IsCall (variant : Variant) (given : List (String × Value)) : Prop where
  known : ∀ g ∈ given, ∃ f ∈ variant.layout, f.name = g.1
  required : ∀ f ∈ variant.layout, f.optional = false → ∃ v, given.lookup f.name = some v

theorem exists_argument {variant : Variant} {given : List (String × Value)} (h : IsCall variant given)
    {f : Field} (hf : f ∈ variant.layout) : ∃ v, argument given f = some v := by
  unfold argument
  cases hlookup : given.lookup f.name with
  | some v => exact ⟨v, rfl⟩
  | none =>
    cases hoptional : f.optional with
    | true => exact ⟨.null, rfl⟩
    | false =>
      obtain ⟨v, hv⟩ := h.required f hf hoptional
      rw [hlookup] at hv
      cases hv

theorem isPlain_of_argument {given : List (String × Value)}
    (hplain : ∀ g ∈ given, g.2.isPlain = true) {f : Field} {v : Value}
    (h : argument given f = some v) : v.isPlain = true := by
  unfold argument at h
  cases hlookup : given.lookup f.name with
  | some w =>
    rw [hlookup] at h
    cases h
    obtain ⟨before, after, hsplit, -⟩ := List.lookup_eq_some_iff.mp hlookup
    exact hplain (f.name, v) (hsplit ▸ List.mem_append_right before List.mem_cons_self)
  | none =>
    rw [hlookup] at h
    simp only at h
    split at h
    · cases h
      rfl
    · cases h

theorem exists_arguments {given : List (String × Value)} (hplain : ∀ g ∈ given, g.2.isPlain = true)
    {fields : List Field} (h : ∀ f ∈ fields, ∃ v, argument given f = some v) :
    ∃ values, fields.mapM (argument given) = some values ∧ Value.allPlain values = true := by
  induction fields with
  | nil => exact ⟨[], rfl, rfl⟩
  | cons f fields ih =>
    obtain ⟨v, hv⟩ := h f List.mem_cons_self
    obtain ⟨values, hvalues, hrest⟩ := ih fun e he => h e (List.mem_cons_of_mem f he)
    refine ⟨v :: values, ?_, ?_⟩
    · rw [List.mapM_cons, hv, hvalues]
      rfl
    · rw [Value.allPlain, isPlain_of_argument hplain hv, hrest]
      rfl

/-- With the names and the required fields in order, what is left is to bring the values to their form. -/
theorem build_of_call {variant : Variant} {given : List (String × Value)}
    (known : ∀ g ∈ given, ∃ f ∈ variant.layout, f.name = g.1) {values : List Value}
    (hvalues : variant.layout.mapM (argument given) = some values) :
    build variant given = coerceFields variant.layout values >>= fun coerced =>
      .ok ⟨variant, coerced⟩ := by
  have hknown : (given.any fun g => !(variant.layout.any fun f => f.name = g.1)) = false := by
    rw [List.any_eq_false]
    intro g hg
    obtain ⟨f, hf, hname⟩ := known g hg
    have hany : (variant.layout.any fun f => f.name = g.1) = true :=
      List.any_eq_true.mpr ⟨f, hf, decide_eq_true hname⟩
    rw [hany]
    decide
  simp only [build, hknown, hvalues, Bool.false_eq_true, if_false]
  rfl

theorem mem_of_fieldEscapes {kind : FieldKind} {v : Value} {g : Fault} (h : FieldEscapes kind v g) :
    g ∈ Metadata.escapees := by
  cases h with
  | amount => exact List.mem_cons_self
  | metadata h =>
    cases h with
    | list h => exact Metadata.mem_of_elementsEscape h
    | tuple h => exact Metadata.mem_of_elementsEscape h

theorem mem_of_fieldsEscape {fields : List Field} {values : List Value} {g : Fault}
    (h : FieldsEscape fields values g) : g ∈ Metadata.escapees := by
  induction h with
  | here h => exact mem_of_fieldEscapes h
  | later _ _ ih => exact ih

/-- A call with plain values either builds the payload or is refused by an error about an encoding,
unless the first argument that is not accepted lets a fault escape: it is an amount with digits beyond
the limit, or metadata whose first bad element is an entry without one of its keys or without a text. -/
theorem build_escapes {variant : Variant} {given : List (String × Value)} (hcall : IsCall variant given)
    (hplain : ∀ g ∈ given, g.2.isPlain = true) :
    ∃ values, variant.layout.mapM (argument given) = some values ∧
      (∀ f, build variant given = .error f →
        f.IsEncoding ∨ ∃ g ∈ Metadata.escapees, f = .fault g) ∧
      ∀ g, build variant given = .error (.fault g) ↔ FieldsEscape variant.layout values g := by
  obtain ⟨values, hvalues, hvaluesPlain⟩ :=
    exists_arguments hplain fun f hf => exists_argument hcall hf
  have hescaping : Escaping (FieldsEscape variant.layout values) (build variant given) := by
    rw [build_of_call hcall.known hvalues]
    exact (escaping_coerceFields variant.layout hvaluesPlain).map _
  refine ⟨values, hvalues, fun f hf => ?_, fun g => hescaping.eq_fault_iff⟩
  rcases hescaping.failsOnly f hf with hencoding | ⟨g, rfl, hg⟩
  · exact .inl hencoding
  · exact .inr ⟨g, mem_of_fieldsEscape hg, rfl⟩

/-- A change of metadata, with the additional metadata as the caller gives it. -/
def metadataArguments (additional : Value) : List (String × Value) :=
  [("recent_epoch", .int 1), ("recent_checkpoint", .int 2), ("chain_id", .int 1212101),
    ("nonce", .int 0), ("name", .text "n"), ("uri", .text "u"), ("token", .bytes (Bytes.zeros 20)),
    ("additional_metadata", additional)]

/-- A pair and an entry without a value. -/
def unfinished : Value := .list [.pair (.text "k") (.text "v"), .dict [(.text "key", .text "k")]]

theorem build_unfinished :
    IsCall .tokenMetadataUpdate (metadataArguments unfinished) ∧
    build .tokenMetadataUpdate (metadataArguments unfinished) = .error (.fault (.missingKey "value")) := by
  have hcall : IsCall .tokenMetadataUpdate (metadataArguments unfinished) := by
    constructor
    · show ∀ g ∈ metadataArguments unfinished, _
      have hnames : ∀ name ∈ (metadataArguments unfinished).map Prod.fst,
          ∃ f ∈ Variant.tokenMetadataUpdate.layout, f.name = name := by decide
      intro g hg
      exact hnames g.1 (List.mem_map_of_mem hg)
    · have hgiven : ∀ f ∈ Variant.tokenMetadataUpdate.layout,
          ((metadataArguments unfinished).lookup f.name).isSome = true := by decide
      intro f hf _
      exact Option.isSome_iff_exists.mp (hgiven f hf)
  have hplain : ∀ g ∈ metadataArguments unfinished, g.2.isPlain = true := by decide
  obtain ⟨values, hvalues, -, hfaults⟩ := build_escapes hcall hplain
  obtain rfl : [.int 1, .int 2, .int 1212101, .int 0, .text "n", .text "u", .bytes (Bytes.zeros 20),
    unfinished] = values := Option.some.inj hvalues
  have hentry : Metadata.EntryEscapes [(.text "key", .text "k")] (.missingKey "value") :=
    .noValue rfl rfl rfl
  have hfield : FieldEscapes .metadata unfinished (.missingKey "value") :=
    .metadata (.list (.later rfl (.here hentry)))
  refine ⟨hcall, (hfaults _).mpr ?_⟩
  exact .later rfl (.later rfl (.later rfl (.later rfl (.later rfl (.later rfl (.later rfl
    (.here hfield)))))))

/-- A caller who writes the entry itself in place of its key and value gets a bare fault. -/
theorem build_entry_in_short :
    build .tokenMetadataUpdate (metadataArguments (.list [.dict [(.text "k", .text "v")]])) =
      .error (.fault (.missingKey "key")) := rfl

end Payload

end LedgerClient
